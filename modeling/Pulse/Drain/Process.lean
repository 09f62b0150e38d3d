import Pulse.System.Sessions

/-! One worker process around its database sessions: `heartbeat_loop`, `shutdown` and the
tasks of its runtime, on the clock which the reapers read too. -/
namespace Pulse.Drain
open Library.Lts

structure WorkerSettings where
  heartbeatSec : Time := 5
  workerShutdownGraceSec : Time := 30
deriving Repr

/-- `heartbeat_loop`: `register` has not returned, `asyncio.sleep`, `_heartbeat_once` with
the time it has read, `_ensure_notify_listener`, or done. -/
inductive Loop where
  | starting
  | sleeping (since : Time)
  | beating (sid : Sid) (now : Time)
  | listening
  | ended
deriving DecidableEq, Repr

/-- A task of the runtime: the session in which `_execute` runs, and the token which its
claim wrote. -/
abbrev RunningTask := Sid × Uuid

/-- `shutdown`: not called, writing the draining status, in `wait_for_idle` with the tasks
which it waits for, writing the dead status, or done. -/
inductive Shutdown where
  | serving
  | announcing (sid : Sid) (started : Time)
  | waiting (started called : Time) (tasks : List RunningTask)
  | retiring (sid : Sid) (started : Time)
  | ended (started : Time)
deriving DecidableEq, Repr

/-- `inTime` and `recorded` are auxiliary: the claims whose handler has returned before
the grace period was over, and those whose outcome this process has committed. -/
structure Process where
  now : Time
  loop : Loop := .starting
  shutdown : Shutdown := .serving
  tasks : List RunningTask := []
  inTime : List Uuid := []
  recorded : List Uuid := []
deriving Repr

/-- When `shutdown` was called. -/
def Shutdown.started : Shutdown → Option Time
  | .serving => none
  | .announcing _ started | .waiting started _ _ | .retiring _ started | .ended started =>
    some started

/-- The process has not begun to set itself dead. -/
def Shutdown.active : Shutdown → Bool
  | .serving | .announcing _ _ | .waiting _ _ _ => true
  | .retiring _ _ | .ended _ => false

inductive Move where
  | pass (duration : Time)
  | act (action : Action)
  | start
  | beat (sid : Sid)
  | heard
  | again
  | stop (sid : Sid)
  | wait
  | retire (sid : Sid)
  | leave
deriving Repr

section Process
variable (settings : WorkerSettings) (workerId : Uuid) (state : System) (process : Process)

/-- `_on_done` has not run for the task. -/
def running (task : RunningTask) : Bool :=
  task.2 ∈ (state.sessions task.1).tokens

/-- No more than the grace period has passed since `shutdown` was called. -/
def Process.inGrace : Bool :=
  process.shutdown.started.all fun started => process.now ≤ started + settings.workerShutdownGraceSec

/-- The steps which the process's own loops do not take: nobody else acts for the worker,
`_poll_once` claims nothing once it is shutting down, and clocks read the time. -/
def Process.permits : Action → Bool
  | .begin _ (.updateWorker id _) => id ≠ workerId
  | .begin _ (.claimJobs _ id _ _) => id ≠ workerId || process.shutdown = .serving
  | .begin _ (.api now .registerWorker) => now = process.now
  | .next sid input => match state.sessions sid with
    | .reaperLocked => input.now = process.now
    | .workerLoaded id _ (.heartbeat _) => id ≠ workerId || process.loop = .beating sid input.now
    | .workerLoaded id _ .retire => id ≠ workerId || input.now = process.now
    | _ => true
  | .exit id => id ≠ workerId
  | _ => true

/-- `submit` starts a task; the auxiliary lists are kept where a handler returns and where
its outcome is committed. -/
def Process.note : Action → Process
  | .submit sid newSid => match state.sessions sid with
    | .handing own (task :: _) =>
      if own = workerId then { process with tasks := (newSid, task.written) :: process.tasks }
      else process
    | _ => process
  | .next sid _ => match state.sessions sid with
    | .handling task _ =>
      if task.workerId = workerId ∧ process.inGrace settings then
        { process with inTime := task.written :: process.inTime }
      else process
    | .finishing task _ _ _ =>
      if task.workerId = workerId then
        { process with recorded := task.written :: process.recorded }
      else process
    | _ => process
  | _ => process

/-- The status which `_heartbeat_once` writes, none while shutting down. -/
def Process.heartbeat : WorkerUpdate :=
  .heartbeat (if process.shutdown = .serving then some (process.tasks.any (running state))
    else none)

end Process

/-- The process begins an update of its own row. -/
def begins (env : Environment) (workerId : Uuid) (state : System) (sid : Sid)
    (update : WorkerUpdate) (process : Process) : Option (System × Process) :=
  (step env state (.begin sid (.updateWorker workerId update))).map fun next => (next, process)

def step (env : Environment) (settings : WorkerSettings) (workerId : Uuid) :
    System × Process → Move → Option (System × Process)
  | (state, process), .pass duration =>
    if 0 ≤ duration then some (state, { process with now := process.now + duration }) else none
  | (state, process), .act action =>
    if process.permits workerId state action then
      (Pulse.step env state action).map fun next =>
        (next, process.note settings workerId state action)
    else none
  | (state, process), .start =>
    if process.loop = .starting ∧ (state.db.findWorker workerId).isSome then
      some (state, { process with loop := .sleeping process.now })
    else none
  | (state, process), .beat sid => match process.loop with
    | .sleeping since =>
      if since + settings.heartbeatSec ≤ process.now then
        begins env workerId state sid (process.heartbeat state)
          { process with loop := .beating sid process.now }
      else none
    | _ => none
  | (state, process), .heard => match process.loop with
    | .beating sid _ =>
      if state.sessions sid = .idle then some (state, { process with loop := .listening }) else none
    | _ => none
  | (state, process), .again => match process.loop with
    | .listening => some (state, { process with
        loop := if process.shutdown = .serving then .sleeping process.now else .ended })
    | _ => none
  | (state, process), .stop sid => match process.shutdown, process.loop with
    | .serving, .starting => none
    | .serving, _ => begins env workerId state sid .drain
        { process with shutdown := .announcing sid process.now }
    | _, _ => none
  | (state, process), .wait => match process.shutdown with
    | .announcing sid started =>
      if state.sessions sid = .idle then some (state, { process with
        shutdown := .waiting started process.now (process.tasks.filter (running state)) })
      else none
    | _ => none
  | (state, process), .retire sid => match process.shutdown with
    | .waiting started called tasks =>
      if !tasks.any (running state) || called + settings.workerShutdownGraceSec ≤ process.now then
        begins env workerId state sid .retire { process with shutdown := .retiring sid started }
      else none
    | _ => none
  | (state, process), .leave => match process.shutdown with
    | .retiring sid started =>
      if state.sessions sid = .idle then
        (Pulse.step env state (.exit workerId)).map fun next =>
          (next, { process with shutdown := .ended started })
      else none
    | _ => none

/-- What one move does. -/
inductive Moved (env : Environment) (settings : WorkerSettings) (workerId : Uuid) (state : System)
    (process : Process) : Move → System → Process → Prop where
  | pass {duration} (forward : 0 ≤ duration) : Moved env settings workerId state process
      (.pass duration) state { process with now := process.now + duration }
  | act {action after} (permitted : process.permits workerId state action = true)
      (taken : Pulse.step env state action = some after) : Moved env settings workerId state process
        (.act action) after (process.note settings workerId state action)
  | rest {move loop shutdown} (started : shutdown.started = process.shutdown.started)
      (active : shutdown.active = process.shutdown.active) :
      Moved env settings workerId state process move state { process with loop, shutdown }
  | beat {sid after loop} (taken : Pulse.step env state (.begin sid (.updateWorker workerId
        (process.heartbeat state))) = some after) :
      Moved env settings workerId state process (.beat sid) after { process with loop }
  | stop {sid after} (serving : process.shutdown = .serving)
      (taken : Pulse.step env state (.begin sid (.updateWorker workerId .drain)) = some after) :
      Moved env settings workerId state process (.stop sid) after
        { process with shutdown := .announcing sid process.now }
  | retire {sid started called tasks after}
      (waiting : process.shutdown = .waiting started called tasks)
      (taken : Pulse.step env state (.begin sid (.updateWorker workerId .retire)) = some after) :
      Moved env settings workerId state process (.retire sid) after
        { process with shutdown := .retiring sid started }
  | leave {sid started after} (retiring : process.shutdown = .retiring sid started)
      (taken : Pulse.step env state (.exit workerId) = some after) :
      Moved env settings workerId state process .leave after
        { process with shutdown := .ended started }

section Moves
variable {env : Environment} {settings : WorkerSettings} {workerId : Uuid} {state after : System}
  {process later : Process} {sid : Sid} {update : WorkerUpdate}

theorem begins_some
    (taken : begins env workerId state sid update process = some (after, later)) :
    Pulse.step env state (.begin sid (.updateWorker workerId update)) = some after ∧
      later = process := by
  obtain ⟨next, stepped, same⟩ := Option.map_eq_some_iff.mp taken
  cases same
  exact ⟨stepped, rfl⟩

theorem step_moved {move : Move}
    (taken : step env settings workerId (state, process) move = some (after, later)) :
    Moved env settings workerId state process move after later := by
  cases move with
  | pass duration =>
    simp only [step] at taken
    split at taken
    · rename_i forward
      cases Option.some.inj taken
      exact .pass forward
    · cases taken
  | act action =>
    simp only [step] at taken
    split at taken
    · rename_i permitted
      obtain ⟨next, stepped, same⟩ := Option.map_eq_some_iff.mp taken
      cases same
      exact .act permitted stepped
    · cases taken
  | start =>
    simp only [step] at taken
    split at taken
    · cases Option.some.inj taken
      exact .rest rfl rfl
    · cases taken
  | beat sid =>
    simp only [step] at taken
    split at taken
    · split at taken
      · obtain ⟨stepped, rfl⟩ := begins_some taken
        exact .beat stepped
      · cases taken
    · cases taken
  | heard =>
    simp only [step] at taken
    split at taken
    · split at taken
      · cases Option.some.inj taken
        exact .rest rfl rfl
      · cases taken
    · cases taken
  | again =>
    simp only [step] at taken
    split at taken
    · cases Option.some.inj taken
      exact .rest rfl rfl
    · cases taken
  | stop sid =>
    simp only [step] at taken
    split at taken
    · cases taken
    · rename_i serving _
      obtain ⟨stepped, rfl⟩ := begins_some taken
      exact .stop serving stepped
    · cases taken
  | wait =>
    simp only [step] at taken
    split at taken
    · rename_i announcing
      split at taken
      · cases Option.some.inj taken
        exact .rest (by simp [announcing, Shutdown.started]) (by simp [announcing, Shutdown.active])
      · cases taken
    · cases taken
  | retire sid =>
    simp only [step] at taken
    split at taken
    · rename_i waiting
      split at taken
      · obtain ⟨stepped, rfl⟩ := begins_some taken
        exact .retire waiting stepped
      · cases taken
    · cases taken
  | leave =>
    simp only [step] at taken
    split at taken
    · rename_i retiring
      split at taken
      · obtain ⟨next, stepped, same⟩ := Option.map_eq_some_iff.mp taken
        cases same
        exact .leave retiring stepped
      · cases taken
    · cases taken

/-- What a handler's return adds. -/
theorem Process.note_inTime {action : Action} {token : Uuid}
    (listed : token ∈ (process.note settings workerId state action).inTime) :
    token ∈ process.inTime ∨ ∃ sid input task executionId, action = .next sid input ∧
      state.sessions sid = .handling task executionId ∧ task.workerId = workerId ∧
        process.inGrace settings = true ∧ task.written = token := by
  cases action with
  | submit =>
    simp only [Process.note] at listed
    split at listed
    · split at listed <;> exact .inl listed
    · exact .inl listed
  | next sid input =>
    simp only [Process.note] at listed
    split at listed
    · rename_i task executionId handling
      split at listed
      · rename_i returned
        rcases List.mem_cons.mp listed with rfl | old
        · exact .inr ⟨sid, input, task, executionId, rfl, handling, returned.1, returned.2, rfl⟩
        · exact .inl old
      · exact .inl listed
    · split at listed <;> exact .inl listed
    · exact .inl listed
  | _ => exact .inl listed

/-- The commit of an outcome is recorded. -/
theorem Process.note_recorded {action : Action} :
    process.recorded ⊆ (process.note settings workerId state action).recorded ∧
      ∀ sid input task executionId durationMs outcome, action = .next sid input →
        state.sessions sid = .finishing task executionId durationMs outcome →
          task.workerId = workerId →
            task.written ∈ (process.note settings workerId state action).recorded := by
  cases action with
  | submit =>
    refine ⟨?_, by simp⟩
    simp only [Process.note]
    split
    · split <;> exact fun _ => id
    · exact fun _ => id
  | next sid input =>
    constructor
    · simp only [Process.note]
      split
      · split <;> exact fun _ => id
      · split
        · exact List.subset_cons_self ..
        · exact fun _ => id
      · exact fun _ => id
    · intro other _ task executionId durationMs outcome same finishing own
      cases same
      simp [Process.note, finishing, own]
  | _ => exact ⟨fun _ => id, by simp⟩

theorem Process.note_frame {action : Action} :
    (process.note settings workerId state action).now = process.now ∧
      (process.note settings workerId state action).shutdown = process.shutdown := by
  unfold Process.note
  split
  · split
    · split <;> exact ⟨rfl, rfl⟩
    · exact ⟨rfl, rfl⟩
  · split
    · split <;> exact ⟨rfl, rfl⟩
    · split <;> exact ⟨rfl, rfl⟩
    · exact ⟨rfl, rfl⟩
  · exact ⟨rfl, rfl⟩

/-- The grace period does not come back. -/
theorem Process.inGrace_of_later (started : later.shutdown.started = process.shutdown.started)
    (older : process.now ≤ later.now) (inGrace : later.inGrace settings = true) :
    process.inGrace settings = true := by
  unfold Process.inGrace at *
  rw [started] at inGrace
  simp only [Option.all_eq_true, decide_eq_true_eq] at *
  exact fun time same => older.trans (inGrace time same)

end Moves

/-- A run of the system in which one process, from its start on, works as its code does. -/
def draining (env : Environment) (settings : WorkerSettings) (workerId : Uuid) :
    Machine (System × Process) Move where
  init := fun pair => pair.1 = {} ∧ ∃ now, pair.2 = { now }
  step := step env settings workerId

end Pulse.Drain
