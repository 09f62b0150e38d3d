import Pulse.Schema

/-! The writes of the engine to one job, with its executions and dead letters:
`claim.py`, `worker/main.py`, `retry.py`, `dispatcher.py`, `reaper.py` and the
job endpoints. All clock readings of one write are one value `now`. -/
namespace Pulse

namespace JobRecord
variable (now : Time) (record : JobRecord)

/-- The `SET` clause of `_CLAIM_SQL`. -/
def claim (workerId token : Uuid) : JobRecord :=
  { record with job := { record.job with
      status := .claimed, workerId := some workerId, lockToken := some token,
      claimedAt := some now } }

/-- First transaction of `_execute`. -/
def start (executionId : Uuid) (attempt : Nat) : JobRecord :=
  { record with
    job := { record.job with status := .running, startedAt := some now }
    executions := record.executions ++ [{
      id := executionId, attemptNumber := attempt, status := .running, startedAt := now,
      life := record.resets }] }

/-- `execution = await db.get(JobExecution, execution_id)` and the writes to it. -/
def onExecution (executionId : Uuid) (f : JobExecution → JobExecution) : JobRecord :=
  { record with executions := record.executions.map (onId JobExecution.id executionId f) }

/-- Second transaction of `_execute`, when the handler returned. -/
def complete (executionId : Uuid) (durationMs : Int) : JobRecord :=
  let closed := record.onExecution executionId fun execution =>
    { execution with
      status := .completed, finishedAt := some now, durationMs := some durationMs }
  { closed with job := { closed.job with
      status := .completed, finishedAt := some now, lockToken := none } }

def moveToDlq (entryId : Uuid) (finalError : String) : JobRecord :=
  { record with
    job := { record.job with
      status := .dead, finishedAt := some now, workerId := none, lockToken := none }
    deadLetters := record.deadLetters ++ [{
      id := entryId, queueId := record.job.queueId, payload := record.job.payload,
      finalError, totalAttempts := record.job.attempts, failedAt := now,
      life := record.resets }] }

end JobRecord

def DEFAULT_BASE_DELAY_SEC : Nat := 5
def DEFAULT_MAX_DELAY_SEC : Nat := 300
def DEFAULT_MAX_ATTEMPTS : Nat := 3

/-- `uniform` is the number which `random.uniform` returned. -/
def computeDelaySec (strategy : RetryStrategy) (attempt baseDelaySec maxDelaySec : Nat)
    (jitterPct uniform : ℚ) : ℚ :=
  let grown : ℚ := match strategy with
    | .fixed => baseDelaySec
    | .linear => (baseDelaySec * attempt : Nat)
    | .exponential => (min (baseDelaySec * 2 ^ (attempt - 1)) maxDelaySec : Nat)
  let capped := min grown maxDelaySec
  max (if jitterPct = 0 then capped else capped + uniform) 0

namespace JobRecord
variable (now : Time) (record : JobRecord)

/-- The branch of `apply_failure` which retries with backoff. -/
def backoff (retryPolicy : Option RetryPolicy) (uniform : ℚ) : JobRecord :=
  let delay := match retryPolicy with
    | some policy => computeDelaySec policy.strategy record.job.attempts policy.baseDelaySec
        policy.maxDelaySec policy.jitterPct uniform
    | none => computeDelaySec .fixed record.job.attempts DEFAULT_BASE_DELAY_SEC
        DEFAULT_MAX_DELAY_SEC 0 uniform
  { record with job := { record.job with
      status := .retrying, runAt := now + delay, workerId := none, lockToken := none } }

def applyFailure (retryPolicy : Option RetryPolicy) (uniform : ℚ) (entryId : Uuid)
    (errorMessage : String) : JobRecord :=
  if record.job.attempts ≥ record.job.maxAttempts then
    record.moveToDlq now entryId errorMessage
  else
    record.backoff now retryPolicy uniform

/-- The writes of a failing `_execute` before it calls `apply_failure`. -/
def chargeAttempt (executionId : Uuid) (attempt : Nat) (durationMs : Int)
    (errorType errorMessage : String) : JobRecord :=
  let closed := record.onExecution executionId fun execution =>
    { execution with
      status := .failed, errorType := some errorType, errorMessage := some errorMessage,
      finishedAt := some now, durationMs := some durationMs }
  { closed with job := { closed.job with attempts := attempt } }

end JobRecord

def WORKER_LOST_ERROR : String := "WorkerLost"
def workerLostMessage : String := "worker died while the job was running (heartbeat lost)"

namespace JobRecord
variable (now : Time) (record : JobRecord)

/-- The reaper closes every running execution of the job and counts it. -/
def chargeLost : JobRecord :=
  { record with
    job := { record.job with attempts := record.job.attempts + 1 }
    executions := record.executions.map fun execution =>
      if execution.status = .running then
        { execution with
          status := .failed, finishedAt := some now, errorType := some WORKER_LOST_ERROR,
          errorMessage := some workerLostMessage }
      else execution }

def requeue : JobRecord :=
  { record with job := { record.job with
      status := .queued, workerId := none, lockToken := none, claimedAt := none } }

/-- The loop body of `reap_dead_workers` for one orphan. -/
def reap (entryId : Uuid) : JobRecord :=
  if record.job.status = .running then
    let charged := record.chargeLost now
    if charged.job.attempts ≥ charged.job.maxAttempts then
      charged.moveToDlq now entryId (WORKER_LOST_ERROR ++ ": " ++ workerLostMessage)
    else charged.requeue
  else record.requeue

/-- `ON DELETE SET NULL` of `jobs.worker_id`. -/
def unassign : JobRecord :=
  { record with job := { record.job with workerId := none } }

/-- `ON DELETE SET NULL` of `jobs.scheduled_job_id`. -/
def detach (scheduledJobId : Uuid) : JobRecord :=
  if record.job.scheduledJobId = some scheduledJobId then
    { record with job := { record.job with scheduledJobId := none } }
  else record

def cancel : JobRecord :=
  { record with job := { record.job with status := .cancelled, finishedAt := some now } }

/-- `retry_job` and `replay_from_dlq` reset the job alike. -/
def reset : JobRecord :=
  { record with
    job := { record.job with
      status := .queued, runAt := now, attempts := 0, workerId := none, lockToken := none,
      claimedAt := none, startedAt := none, finishedAt := none }
    resets := record.resets + 1 }

/-- `replayed_at = now` on the chosen dead letters. -/
def consume (chosen : List Uuid) : JobRecord :=
  { record with deadLetters := record.deadLetters.map fun entry =>
      if entry.id ∈ chosen then { entry with replayedAt := some now } else entry }

/-- The `SET` clause of both promoting UPDATE statements. -/
def promote : JobRecord :=
  { record with job := { record.job with status := .queued } }

/-- A dependent whose prerequisites have all completed. -/
def release : JobRecord :=
  { record with job := { record.job with status := .queued, runAt := now } }

end JobRecord

/-- Statuses from which `cancel_job` accepts a job. -/
def JobStatus.cancellable : JobStatus → Bool
  | .scheduled | .queued | .retrying => true
  | _ => false

/-- Statuses from which `retry_job` accepts a job. -/
def JobStatus.retryable : JobStatus → Bool
  | .failed | .dead => true
  | _ => false

/-- The dead letters still to be replayed. -/
def JobRecord.openLetters (record : JobRecord) : List DeadLetterEntry :=
  record.deadLetters.filter fun entry => entry.replayedAt = none

end Pulse
