import NanoDelta.Runtime.Control

/-!
# What becomes of a command

A command that was claimed is carried out on the worker that earlier commands have left. A `STOP` awaits the worker's task
also when a timeout has cancelled it, and `CancelledError` is not caught; what `aclose()` raises while the worker is
cancelled is not caught either. The row then stays as it was claimed.

* `Settled`: no exception has left `process_one`, and every claimed command is under way or at an end.
* `settled_iff`: this is so in every state of a run just if no step is of these two kinds.
* `stuck_stop`: the second `STOP` after a timeout.
-/

namespace NanoDelta.Runtime.Commands

open Library Operations MarketWorker

/-- No exception has left `process_one`; a running command is under way in a process; and each command that was executed
was so once, and is at least claimed. -/
structure Settled (s : Processes) : Prop where
  alive : ∀ i raised, (s.processes i).phase ≠ .ended raised
  underway : ∀ row ∈ s.db.runtimeCommandQueue, row.state = .running →
    ∃ i, ∃ command ∈ (s.processes i).phase.claimed, command.commandId = row.commandId
  executed : ∀ commandId ∈ s.executed, ∃ row ∈ s.db.runtimeCommandQueue, row.commandId = commandId ∧ row.state ≠ .pending
  once : s.executed.Nodup

/-- A step at which a process ends. -/
theorem ended_of_not_survives {s : Processes} {input : RuntimeInput} (h : ¬ Survives s input) :
    ∃ i raised, ((runtime.step s input).1.processes i).phase = .ended raised := by
  cases input with
  | transition i awaits =>
    simp only [Survives, not_forall] at h
    obtain ⟨command, hcommand, hstop, hcancelled⟩ := h
    have hphase : (s.processes i).phase = .executing command := by
      cases hp : (s.processes i).phase <;> rw [hp] at hcommand <;> cases hcommand
      rfl
    have hraised : (execute command.command awaits _).2 = _ := execute_cancelledError.mpr ⟨hstop, by simpa using hcancelled⟩
    refine ⟨i, .cancelledError, ?_⟩
    simp only [runtime, hphase, phase_work, if_true, hraised]
    rfl
  | cancel i cleanup close =>
    simp only [Survives, not_forall] at h
    obtain ⟨hcancels, hclose⟩ := h
    obtain ⟨e', rfl⟩ := Option.ne_none_iff_exists'.mp hclose
    cases hphase : (s.processes i).phase with
    | cancelling command e =>
      refine ⟨i, .exception e', ?_⟩
      simp only [runtime, hphase]
      unfold cancel
      split
      · rename_i hsplit
        split at hsplit <;> cases hsplit
      · rename_i hsplit
        split at hsplit <;> cases hsplit <;> simp
    | _ =>
      rw [hphase] at hcancels
      cases hcancels
  | _ => exact absurd trivial h

/-- No call of the database by the mailbox raises. -/
def Answered : RuntimeInput → Prop
  | .fail _ _ => False
  | _ => True

variable {s s' : Processes} {input : RuntimeInput}

theorem alive_of_stepped (h : Settled s) (hstep : Stepped s input s') (hsurvives : Survives s input)
    (hanswered : Answered input) : ∀ i raised, (s'.processes i).phase ≠ .ended raised := by
  intro i raised hended
  cases hstep with
  | same => exact h.alive i raised hended
  | enqueue hdb => exact h.alive i raised hended
  | fail hlocks hphase => exact hanswered
  | lock hphase hrow =>
    rw [phase_goto] at hended
    split_ifs at hended
    exact h.alive i raised hended
  | claim hphase hrow =>
    rw [phase_goto] at hended
    split_ifs at hended
    exact h.alive i raised hended
  | complete hphase =>
    rw [phase_goto] at hended
    split_ifs at hended
    exact h.alive i raised hended
  | work hphase hlocked =>
    rw [phase_work] at hended
    split_ifs at hended with hi
    · rcases hphase with hphase | ⟨-, -, hsome⟩ | ⟨-, hnot⟩
      · exact h.alive _ raised (hphase.symm.trans hended)
      · rw [hended] at hsome
        cases hsome
      · exact hnot hsurvives
    · exact h.alive i raised hended

theorem underway_of_stepped (hkept : Kept s) (h : Settled s) (hstep : Stepped s input s') (hsurvives : Survives s input)
    (hanswered : Answered input) : ∀ row ∈ s'.db.runtimeCommandQueue, row.state = .running →
      ∃ i, ∃ command ∈ (s'.processes i).phase.claimed, command.commandId = row.commandId := by
  intro row hrow hrunning
  cases hstep with
  | same => exact h.underway row hrow hrunning
  | fail hlocks hphase => exact hanswered.elim
  | enqueue hdb =>
    obtain ⟨added, hqueue, hpending, -⟩ := rows_of_commitQueuedCommand hdb
    simp only [hqueue] at hrow
    rcases List.mem_append.mp hrow with hold | hnew
    · exact h.underway row hold hrunning
    · rw [List.mem_singleton.mp hnew, hpending] at hrunning
      cases hrunning
  | lock hphase hselected =>
    obtain ⟨i, command, hcommand, hid⟩ := h.underway row hrow hrunning
    refine ⟨i, command, ?_, hid⟩
    rw [phase_goto]
    split_ifs with hi
    · rw [hi, hphase] at hcommand
      cases hcommand
    · exact hcommand
  | claim hphase hclaimed =>
    rename_i i claimed now
    rcases of_mem_updateRow hrow with ⟨hold, -⟩ | ⟨old, -, hold, rfl⟩
    · obtain ⟨j, command, hcommand, hid⟩ := h.underway row hold hrunning
      refine ⟨j, command, ?_, hid⟩
      rw [phase_goto]
      split_ifs with hj
      · rw [hj, hphase] at hcommand
        cases hcommand
      · exact hcommand
    · refine ⟨i, commandOf claimed, ?_, hold.symm⟩
      rw [phase_goto, if_pos rfl]
      rfl
  | work hphase hlocked =>
    obtain ⟨i, command, hcommand, hid⟩ := h.underway row hrow hrunning
    refine ⟨i, command, ?_, hid⟩
    rw [phase_work]
    split_ifs with hi
    · rcases hphase with hphase | ⟨-, hphase, -⟩ | ⟨-, hnot⟩
      · rw [hphase, ← hi]
        exact hcommand
      · rw [hphase, ← hi]
        exact hcommand
      · exact absurd hsurvives hnot
    · exact hcommand
  | complete hphase =>
    rename_i i now completed error
    have hclaimed : completed ∈ (s.processes i).phase.claimed := by
      rw [hphase]
      rfl
    rcases of_mem_updateRow hrow with ⟨hold, hne⟩ | ⟨old, hold, hid, rfl⟩
    · obtain ⟨j, command, hcommand, hid⟩ := h.underway row hold hrunning
      refine ⟨j, command, ?_, hid⟩
      rw [phase_goto]
      split_ifs with hj
      · rw [hj, hphase] at hcommand
        cases hcommand
        exact absurd hid.symm hne
      · exact hcommand
    · -- The row was claimed by this process, so it is at an end now.
      obtain ⟨claimed, hmem, rfl, -, hinstance⟩ := hkept.claimed i completed hclaimed
      rw [hkept.row_eq hold hmem hid] at hrunning
      rcases (state_completedRow (s.processes i).instanceId now error claimed).2 hinstance with hend | hend
      · rw [hend] at hrunning
        cases hrunning
      · rw [hend] at hrunning
        cases hrunning

/-- **A step** leaves the commands settled just if no exception leaves `process_one`. -/
theorem settled_step_iff (hkept : Kept s) (h : Settled s) (hanswered : Answered input) :
    Settled (runtime.step s input).1 ↔ Survives s input := by
  constructor
  · intro hsettled
    by_contra hnot
    obtain ⟨i, raised, hended⟩ := ended_of_not_survives hnot
    exact hsettled.alive i raised hended
  · intro hsurvives
    have hstep := step_stepped s input
    have hkept' := hkept.stepped hstep
    refine ⟨?_, ?_, hkept'.executed, hkept'.once⟩
    · exact alive_of_stepped h hstep hsurvives hanswered
    · exact underway_of_stepped hkept h hstep hsurvives hanswered

/-- A process that has come to the end of a command returns, with the row at an end. -/
theorem complete_returns {i : ℕ} {command : RuntimeCommand} {error : Option String} (hkept : Kept s)
    (hphase : (s.processes i).phase = .completing command error) (now : Instant) :
    (runtime.step s (.complete i now)).2 = some (.ok true) ∧
      ∀ row ∈ (runtime.step s (.complete i now)).1.db.runtimeCommandQueue, row.commandId = command.commandId →
        row.state = .failed ∨ row.state = .succeeded := by
  obtain ⟨claimed, hmem, rfl, -, hinstance⟩ := hkept.claimed i command (by rw [hphase]; rfl)
  simp only [runtime, hphase, true_and]
  intro row hrow hid
  rcases of_mem_updateRow hrow with ⟨-, hne⟩ | ⟨old, hold, he, rfl⟩
  · exact absurd hid hne
  · rw [hkept.row_eq hold hmem he]
    exact (state_completedRow ..).2 hinstance

/-- **In every run**, with any number of processes, the commands are settled after every step just if no `STOP` is carried
out on a worker whose task was cancelled, and no `aclose()` raises in a worker's `cancel()`. -/
theorem settled_iff (names : ℕ → String) (inputs : List RuntimeInput) (hanswered : ∀ input ∈ inputs, Answered input) :
    runtime.Along (fun s input => Settled (runtime.step s input).1) (atStart names) inputs ↔
      runtime.Along Survives (atStart names) inputs :=
  Machine.along_next_iff (fun s input h => h.stepped (step_stepped s input))
    (fun _ _ hkept hsettled hin => settled_step_iff hkept hsettled hin) (kept_atStart names)
    ⟨fun _ _ h => (nomatch h), fun _ h => (nomatch h), fun _ h => (nomatch h), List.nodup_nil⟩
    (Machine.along_of_forall hanswered _)

/-! ### Runs -/

/-- A queued command for NSE. -/
def queued (id : String) (command : Command) (requestedAt : Instant) : RuntimeInput :=
  .enqueue ⟨id, "key-" ++ id, .nse, command, "operator-1", .stopped, .stopped, requestedAt, ""⟩

/-- A command is claimed, carried out and completed by process 0. -/
def processed (id : String) (awaits : Awaits) : List RuntimeInput :=
  [.lock 0 id, .claim 0 0, .transition 0 awaits, .complete 0 0]

/-- A `STOP` at whose deadline the task is cancelled. -/
def timedOutStop (id : String) : List RuntimeInput :=
  [.lock 0 id, .claim 0 0, .transition 0 { task := .deadline none }, .cancel 0 none none, .complete 0 0]

/-- The commands of a run: a start, a stop that times out, and one more command. -/
def afterTimeout (command : Command) : List RuntimeInput :=
  [queued "c1" .start 0, queued "c2" .stop 1, queued "c3" command 2] ++ processed "c1" {} ++ timedOutStop "c2" ++
    processed "c3" {}

/-- A `DRAIN` after the timeout finds the task at an end. -/
theorem settled_drain :
    runtime.Along (fun s input => Settled (runtime.step s input).1) (atStart fun _ => "i1") (afterTimeout .drain) :=
  (settled_iff (fun _ => "i1") (afterTimeout .drain)
    (by simp [afterTimeout, queued, processed, timedOutStop, Answered])).mpr (by decide +kernel)

/-- **A second `STOP` after the timeout** awaits the cancelled task: `CancelledError` leaves `process_one`, and the command
stays as it was claimed. -/
theorem stuck_stop :
    let s := runtime.exec (atStart fun _ => "i1") (afterTimeout .stop)
    (s.processes 0).phase = .ended .cancelledError ∧
      s.db.runtimeCommandQueue.map QueueRow.state = [.succeeded, .failed, .running] := by
  decide +kernel

end NanoDelta.Runtime.Commands
