import NanoDelta.Operations.Controller

/-!
# Workers

`runtime/supervisor.py`: the states of a market's worker, the snapshots that it publishes, and how its transitions go
along with the task that it runs. What is awaited in a transition comes to one of the ends of `Awaits`; a deadline that is
reached while a task is awaited cancels that task.

* `start`, `drain`, `stop`, `cancel`: the methods of `MarketWorker`.
-/

namespace NanoDelta.Runtime

/-- `RuntimeState`. -/
inductive RuntimeState where
  | starting
  | running
  | draining
  | stopped
  | failed
  deriving DecidableEq, Repr

/-- The state of the worker's row that a published state sets: it has no name for the others. -/
def RuntimeState.workerState : RuntimeState → Option Operations.WorkerState
  | .running => some .running
  | .draining => some .draining
  | .stopped => some .stopped
  | .starting => none
  | .failed => none

/-- `WorkerSnapshot`. -/
structure WorkerSnapshot where
  market : Market
  instanceId : String
  state : RuntimeState
  lastHeartbeat : Instant
  lastCycleStarted : Option Instant := none
  lastCycleFinished : Option Instant := none
  lastError : Option String := none
  deriving DecidableEq, Repr

/-! ### Tasks -/

/-- `_task`: it runs, or has returned or raised, or was cancelled. A cycle does not raise `CancelledError` of itself. -/
inductive Task where
  | running
  | done (result : Except PyError PUnit)
  | cancelled

/-- A task that has been cancelled, after its last publications: the second raised, if there is an error. -/
def Task.afterCancel : Option PyError → Task
  | none => .cancelled
  | some e => .done (.error e)

/-- What ends a transition early: an exception, or `CancelledError`, which is none. -/
inductive Raised where
  | exception (e : PyError)
  | cancelledError
  deriving DecidableEq, Repr

/-- The `TimeoutError` of `asyncio.timeout`. -/
def timedOut : Raised := .exception (.timeoutError "")

/-- What an `await` comes to. -/
inductive Await where
  | returns
  | raises (e : PyError)
  /-- The deadline of the transition is reached. -/
  | deadline

/-- What an `await` raises. -/
def Await.result : Await → Except Raised PUnit
  | .returns => .ok ()
  | .raises e => .error (.exception e)
  | .deadline => .error timedOut

theorem Await.result_ne (await : Await) : await.result ≠ .error .cancelledError := by
  cases await <;> simp [Await.result, timedOut]

/-- What the `await` of a running task comes to: the task ends, or the deadline cancels it. -/
inductive TaskAwait where
  | ends (result : Except PyError PUnit)
  | deadline (cleanup : Option PyError)

/-- What is awaited in a transition. -/
structure Awaits where
  publish : Await := .returns
  task : TaskAwait := .ends (.ok ())
  /-- The deadline is reached while the heartbeat ends. -/
  heartbeat : Bool := false
  close : Await := .returns

/-! ### The methods of `MarketWorker` -/

namespace MarketWorker

variable (awaits : Awaits) (task : Option Task)

/-- `start`. -/
def start : Option Task × Except Raised PUnit :=
  match task, awaits.publish.result with
  | some .running, _ => (task, .ok ())
  | _, .ok () => (some .running, .ok ())
  | _, .error e => (task, .error e)

/-- `_finish_heartbeat` and `_close_cycle`. -/
def finish : Except Raised PUnit := if awaits.heartbeat then .error timedOut else awaits.close.result

/-- `await self._task` of a running task, and what follows. -/
def awaitTask : Option Task × Except Raised PUnit :=
  match awaits.task with
  | .ends (.ok ()) => (some (.done (.ok ())), finish awaits)
  | .ends (.error e) => (some (.done (.error e)), .error (.exception e))
  | .deadline none => (some .cancelled, .error timedOut)
  | .deadline (some e) => (some (.done (.error e)), .error (.exception e))

/-- `drain`. -/
def drain : Option Task × Except Raised PUnit :=
  match task, awaits.publish.result with
  | some .running, .ok () => awaitTask awaits
  | some .running, .error e => (task, .error e)
  | _, _ => (task, .ok ())

/-- `stop`: a task that was cancelled before raises `CancelledError`. -/
def stop : Option Task × Except Raised PUnit :=
  match task with
  | some .running => awaitTask awaits
  | some (.done (.error e)) => (task, .error (.exception e))
  | some .cancelled => (task, .error .cancelledError)
  | some (.done (.ok ())) => (task, finish awaits)
  | none => (task, finish awaits)

/-- `cancel`: `cleanup` is what the last publications of the task raise, `close` what `aclose()` raises. -/
def cancel (cleanup close : Option PyError) : Option Task × Option PyError :=
  match task with
  | some .running => (some (.afterCancel cleanup), close)
  | _ => (task, close)

/-- **Only a `STOP` raises `CancelledError`**, and only of a task that was cancelled before. -/
theorem stop_cancelledError : (stop awaits task).2 = .error .cancelledError ↔ task = some .cancelled := by
  have hfinish : finish awaits ≠ .error .cancelledError := by
    unfold finish
    split_ifs
    · simp [timedOut]
    · exact awaits.close.result_ne
  have hawait : (awaitTask awaits).2 ≠ .error .cancelledError := by
    unfold awaitTask
    split <;> simp [timedOut, hfinish]
  unfold stop
  split <;> simp [hfinish, hawait]

theorem start_ne_cancelledError : (start awaits task).2 ≠ .error .cancelledError := by
  unfold start
  split
  · simp
  · simp
  · rename_i hresult
    intro h
    exact awaits.publish.result_ne (hresult.trans h)

theorem drain_ne_cancelledError : (drain awaits task).2 ≠ .error .cancelledError := by
  have hawait : (awaitTask awaits).2 ≠ .error .cancelledError := by
    intro h
    have hstop := (stop_cancelledError awaits (some .running)).mp h
    cases hstop
  unfold drain
  split
  · exact hawait
  · rename_i hresult
    intro h
    exact awaits.publish.result_ne (hresult.trans h)
  · simp

end MarketWorker

end NanoDelta.Runtime
