import Pulse.Schema
import Pulse.Library.Lts

/-! The event loop of one worker process: `poll_loop` with `_poll_once`, the job tasks of its
`WorkerRuntime`, and `shutdown`. A step is what runs from one suspension to the next. -/
namespace Pulse.Runtime
open Library.Lts

/-- A member of `_tasks`; `done` until its `_on_done` has run. -/
structure JobTask where
  id : Nat
  jobId : Uuid
  done : Bool := false
deriving DecidableEq, Repr

/-- `sem` is the value of `_sem`. -/
structure WorkerRuntime where
  concurrency : Nat
  sem : Nat := concurrency
  running : Int := 0
  tasks : List JobTask := []
deriving DecidableEq, Repr

def WorkerRuntime.freeSlots (runtime : WorkerRuntime) : Int := runtime.concurrency - runtime.running

/-- Where `poll_loop` is suspended: before its first iteration, in `claim_jobs` before its
commit with the slots it asked for, in it after its commit with the jobs it has claimed, in
`submit` of a job until the semaphore is granted, or in the wait for the wake event; `rest` are
the queues which `_poll_once` has still to visit. -/
inductive Poll where
  | starting
  | claiming (free : Int) (rest : List Uuid)
  | claimed (jobs rest : List Uuid)
  | acquiring (granted : Bool) (jobId : Uuid) (jobs rest : List Uuid)
  | sleeping
  | ended
deriving DecidableEq, Repr

/-- `shutdown`: not called, writing the draining status, in `asyncio.wait` on the tasks which
`wait_for_idle` has found, past it (before the grace period elapsed or not) up to the commit of
the dead status, or done. -/
inductive Shutdown where
  | notCalled
  | draining
  | waiting (tasks : List Nat)
  | retiring (inTime : Bool)
  | ended (inTime : Bool)
deriving DecidableEq, Repr

structure WorkerProcess where
  runtime : WorkerRuntime
  queueIds : List Uuid := []
  poll : Poll := .starting
  wakeEvent : Bool := false
  shutdown : Shutdown := .notCalled
  nextTask : Nat := 0
deriving DecidableEq, Repr

section Process
variable (process : WorkerProcess)

def WorkerProcess.shuttingDown : Bool := process.shutdown ≠ .notCalled

/-- `submit` once it has the semaphore: `_running += 1` and `create_task`. -/
def WorkerProcess.start (jobId : Uuid) : WorkerProcess :=
  { process with
    nextTask := process.nextTask + 1
    runtime := { process.runtime with
      running := process.runtime.running + 1
      tasks := { id := process.nextTask, jobId } :: process.runtime.tasks } }

/-- `acquire` of a semaphore which is not locked. -/
def WorkerProcess.acquire : WorkerProcess :=
  { process with runtime := { process.runtime with sem := process.runtime.sem - 1 } }

/-- `_poll_once` at its next queue. -/
def WorkerProcess.visit (queues : List Uuid) : WorkerProcess :=
  match queues with
  | [] => { process with poll := .sleeping }
  | _ :: rest =>
    if process.shuttingDown then { process with poll := .sleeping }
    else if process.runtime.freeSlots ≤ 0 then { process with poll := .sleeping }
    else { process with poll := .claiming process.runtime.freeSlots rest }

end Process

/-- The loop over the claimed jobs. -/
def WorkerProcess.submitAll (process : WorkerProcess) (rest : List Uuid) :
    List Uuid → WorkerProcess
  | [] => process.visit rest
  | jobId :: jobs =>
    if process.runtime.sem = 0 then { process with poll := .acquiring false jobId jobs rest }
    else (process.acquire.start jobId).submitAll rest jobs

/-- `while not self.shutting_down`. -/
def WorkerProcess.iterate (process : WorkerProcess) : WorkerProcess :=
  if process.shuttingDown then { process with poll := .ended }
  else process.visit process.queueIds

/-- A task ends. -/
def WorkerProcess.finish (process : WorkerProcess) (id : Nat) : WorkerProcess :=
  { process with runtime := { process.runtime with
    tasks := process.runtime.tasks.map fun task =>
      if task.id = id then { task with done := true } else task } }

/-- `_on_done`, with the waiter which `release` wakes. -/
def WorkerProcess.onDone (process : WorkerProcess) (id : Nat) : WorkerProcess :=
  let runtime := { process.runtime with
    running := process.runtime.running - 1
    tasks := process.runtime.tasks.filter fun task => task.id ≠ id }
  match process.poll with
  | .acquiring false jobId jobs rest =>
    { process with runtime, poll := .acquiring true jobId jobs rest }
  | _ => { process with runtime := { runtime with sem := runtime.sem + 1 } }

/-- `wait_for_idle`. -/
def WorkerProcess.waitForIdle (process : WorkerProcess) : Shutdown :=
  if process.runtime.tasks = [] then .retiring true
  else .waiting (process.runtime.tasks.map JobTask.id)

/-- `poll_loop` begins, its claim commits or fails before, `claim_jobs` returns the rows (each once,
less those deleted since) or fails in its last SELECT, the semaphore is granted, and the wait ends; a
notification, and `_refresh_queue_ids`; a job task ends in any way, and its callback runs; and
`shutdown` is called, has written the draining status, sees all tasks done or the grace period over,
and has written the dead status. -/
inductive Step where
  | begin
  | claim (jobs : List Uuid)
  | fail
  | submit (jobs : List Uuid)
  | lose
  | resume
  | wake
  | notify
  | refresh (queueIds : List Uuid)
  | finish (id : Nat)
  | callback (id : Nat)
  | stop
  | wait
  | idle
  | timeout
  | retire
deriving DecidableEq, Repr

def advance (process : WorkerProcess) : Step → Option WorkerProcess
  | .begin => match process.poll with
    | .starting => some process.iterate
    | _ => none
  | .claim jobs => match process.poll with
    | .claiming free rest =>
      if jobs.length ≤ free then some { process with poll := .claimed jobs rest } else none
    | _ => none
  | .fail => match process.poll with
    | .claiming _ _ => some { process with poll := .sleeping }
    | _ => none
  | .submit returned => match process.poll with
    | .claimed jobs rest =>
      if returned.Nodup ∧ returned.all (· ∈ jobs) then some (process.submitAll rest returned)
      else none
    | _ => none
  | .lose => match process.poll with
    | .claimed _ _ => some { process with poll := .sleeping }
    | _ => none
  | .resume => match process.poll with
    | .acquiring true jobId jobs rest => some ((process.start jobId).submitAll rest jobs)
    | _ => none
  | .wake => match process.poll with
    | .sleeping => some { process with wakeEvent := false }.iterate
    | _ => none
  | .notify => some { process with wakeEvent := true }
  | .refresh queueIds => some { process with queueIds }
  | .finish id =>
    if process.runtime.tasks.any fun task => task.id = id && !task.done then
      some (process.finish id)
    else none
  | .callback id =>
    if process.runtime.tasks.any fun task => task.id = id && task.done then
      some (process.onDone id)
    else none
  | .stop => match process.shutdown with
    | .notCalled => some { process with shutdown := .draining }
    | _ => none
  | .wait => match process.shutdown with
    | .draining => some { process with shutdown := process.waitForIdle }
    | _ => none
  | .idle => match process.shutdown with
    | .waiting tasks =>
      if process.runtime.tasks.all fun task => task.id ∉ tasks || task.done then
        some { process with shutdown := .retiring true }
      else none
    | _ => none
  | .timeout => match process.shutdown with
    | .waiting _ => some { process with shutdown := .retiring false }
    | _ => none
  | .retire => match process.shutdown with
    | .retiring inTime => some { process with shutdown := .ended inTime }
    | _ => none

/-- `shutdown` has returned, and `main` cancels the loops. -/
def Shutdown.hasReturned : Shutdown → Bool
  | .ended _ => true
  | _ => false

def step (process : WorkerProcess) (action : Step) : Option WorkerProcess :=
  if process.shutdown.hasReturned then none else advance process action

/-- The worker once it is registered. -/
def worker : Machine WorkerProcess Step where
  init := fun process => ∃ concurrency queueIds,
    process = { runtime := { concurrency }, queueIds }
  step := step

/-- What one step does. -/
inductive Advanced (process : WorkerProcess) : Step → WorkerProcess → Prop where
  | begin (starting : process.poll = .starting) : Advanced process .begin process.iterate
  | claim {free jobs rest} (claiming : process.poll = .claiming free rest)
      (within : (jobs.length : Int) ≤ free) :
      Advanced process (.claim jobs) { process with poll := .claimed jobs rest }
  | fail {free rest} (claiming : process.poll = .claiming free rest) :
      Advanced process .fail { process with poll := .sleeping }
  | submit {jobs rest returned} (claimed : process.poll = .claimed jobs rest)
      (once : returned.Nodup) (among : returned ⊆ jobs) :
      Advanced process (.submit returned) (process.submitAll rest returned)
  | lose {jobs rest} (claimed : process.poll = .claimed jobs rest) :
      Advanced process .lose { process with poll := .sleeping }
  | resume {jobId jobs rest} (acquiring : process.poll = .acquiring true jobId jobs rest) :
      Advanced process .resume ((process.start jobId).submitAll rest jobs)
  | wake (sleeping : process.poll = .sleeping) :
      Advanced process .wake { process with wakeEvent := false }.iterate
  | notify : Advanced process .notify { process with wakeEvent := true }
  | refresh {queueIds} : Advanced process (.refresh queueIds) { process with queueIds }
  | finish {task} (member : task ∈ process.runtime.tasks) (running : task.done = false) :
      Advanced process (.finish task.id) (process.finish task.id)
  | callback {task} (member : task ∈ process.runtime.tasks) (done : task.done = true) :
      Advanced process (.callback task.id) (process.onDone task.id)
  | stop (unstopped : process.shutdown = .notCalled) :
      Advanced process .stop { process with shutdown := .draining }
  | wait (draining : process.shutdown = .draining) :
      Advanced process .wait { process with shutdown := process.waitForIdle }
  | idle {tasks} (waiting : process.shutdown = .waiting tasks)
      (done : ∀ task ∈ process.runtime.tasks, task.id ∈ tasks → task.done = true) :
      Advanced process .idle { process with shutdown := .retiring true }
  | timeout {tasks} (waiting : process.shutdown = .waiting tasks) :
      Advanced process .timeout { process with shutdown := .retiring false }
  | retire {inTime} (retiring : process.shutdown = .retiring inTime) :
      Advanced process .retire { process with shutdown := .ended inTime }

section Steps
variable {process next : WorkerProcess} {action : Step}

theorem advance_advanced (taken : advance process action = some next) :
    Advanced process action next := by
  cases action with
  | begin =>
    simp only [advance] at taken
    split at taken
    · rename_i starting
      cases Option.some.inj taken
      exact .begin starting
    · cases taken
  | claim jobs =>
    simp only [advance] at taken
    split at taken
    · rename_i claiming
      split at taken
      · rename_i within
        cases Option.some.inj taken
        exact .claim claiming within
      · cases taken
    · cases taken
  | fail =>
    simp only [advance] at taken
    split at taken
    · rename_i claiming
      cases Option.some.inj taken
      exact .fail claiming
    · cases taken
  | submit returned =>
    simp only [advance] at taken
    split at taken
    · rename_i claimed
      split at taken
      · rename_i rows
        cases Option.some.inj taken
        exact .submit claimed rows.1 fun job listed => by
          simpa using List.all_eq_true.mp rows.2 job listed
      · cases taken
    · cases taken
  | lose =>
    simp only [advance] at taken
    split at taken
    · rename_i claimed
      cases Option.some.inj taken
      exact .lose claimed
    · cases taken
  | resume =>
    simp only [advance] at taken
    split at taken
    · rename_i acquiring
      cases Option.some.inj taken
      exact .resume acquiring
    · cases taken
  | wake =>
    simp only [advance] at taken
    split at taken
    · rename_i sleeping
      cases Option.some.inj taken
      exact .wake sleeping
    · cases taken
  | notify =>
    cases Option.some.inj taken
    exact .notify
  | refresh queueIds =>
    cases Option.some.inj taken
    exact .refresh
  | finish id =>
    simp only [advance] at taken
    split at taken
    · rename_i present
      cases Option.some.inj taken
      obtain ⟨task, member, same⟩ := List.any_eq_true.mp present
      simp only [Bool.and_eq_true, decide_eq_true_eq, Bool.not_eq_true'] at same
      obtain ⟨rfl, running⟩ := same
      exact .finish member running
    · cases taken
  | callback id =>
    simp only [advance] at taken
    split at taken
    · rename_i present
      cases Option.some.inj taken
      obtain ⟨task, member, same⟩ := List.any_eq_true.mp present
      simp only [Bool.and_eq_true, decide_eq_true_eq] at same
      obtain ⟨rfl, done⟩ := same
      exact .callback member done
    · cases taken
  | stop =>
    simp only [advance] at taken
    split at taken
    · rename_i unstopped
      cases Option.some.inj taken
      exact .stop unstopped
    · cases taken
  | wait =>
    simp only [advance] at taken
    split at taken
    · rename_i draining
      cases Option.some.inj taken
      exact .wait draining
    · cases taken
  | idle =>
    simp only [advance] at taken
    split at taken
    · rename_i tasks waiting
      split at taken
      · rename_i ended
        cases Option.some.inj taken
        refine .idle waiting fun task member waited => ?_
        simpa [waited] using List.all_eq_true.mp ended task member
      · cases taken
    · cases taken
  | timeout =>
    simp only [advance] at taken
    split at taken
    · rename_i waiting
      cases Option.some.inj taken
      exact .timeout waiting
    · cases taken
  | retire =>
    simp only [advance] at taken
    split at taken
    · rename_i retiring
      cases Option.some.inj taken
      exact .retire retiring
    · cases taken

theorem step_advanced (taken : step process action = some next) :
    process.shutdown.hasReturned = false ∧ Advanced process action next := by
  unfold step at taken
  split at taken
  · cases taken
  · rename_i running
    exact ⟨by simpa using running, advance_advanced taken⟩

/-! The poll loop leaves `shutdown` to itself. -/

@[simp] theorem visit_shutdown (queues : List Uuid) :
    (process.visit queues).shutdown = process.shutdown := by
  unfold WorkerProcess.visit
  split
  · rfl
  · split
    · rfl
    · split <;> rfl

@[simp] theorem submitAll_shutdown (rest jobs : List Uuid) :
    (process.submitAll rest jobs).shutdown = process.shutdown := by
  induction jobs generalizing process with
  | nil => exact visit_shutdown rest
  | cons jobId jobs ih =>
    unfold WorkerProcess.submitAll
    split
    · rfl
    · exact ih

@[simp] theorem iterate_shutdown : process.iterate.shutdown = process.shutdown := by
  unfold WorkerProcess.iterate
  split
  · rfl
  · exact visit_shutdown _

@[simp] theorem onDone_shutdown (id : Nat) : (process.onDone id).shutdown = process.shutdown := by
  unfold WorkerProcess.onDone
  dsimp only
  split <;> rfl

end Steps
end Pulse.Runtime
