import Pulse.System.Sessions

/-! What the commit of a session may do to one job, said once. Every invariant of
the job rows is derived from this classification. -/
namespace Pulse
open Library.RowLock

/-- The changes of one job by the commit of a session in the given stage. -/
inductive Move (state : System) : Session → JobRecord → JobRecord → Prop where
  | keep {session record} (other : record.job.id ∉ session.rows) :
      Move state session record record
  | detach {record id} : Move state .idle record (record.detach id)
  | claim {queueId workerId now rows row record} (member : row ∈ rows)
      (same : record.job.id = row.jobId) (queued : record.job.status = .queued)
      (queue : record.job.queueId = queueId) (attempts : record.job.attempts = row.attempts) :
      Move state (.claimWritten queueId workerId now rows) record
        (record.claim now workerId row.token)
  | start {task now record} (same : record.job.id = task.jobId)
      (token : record.job.lockToken = task.token) (held : task.token.isSome = true) :
      Move state (.starting task) record (record.start now (state.draw task.jobId) task.attempt)
  | complete {task executionId durationMs now record} (same : record.job.id = task.jobId)
      (token : record.job.lockToken = task.token) (held : task.token.isSome = true) :
      Move state (.finishing task executionId durationMs .success) record
        (record.complete now executionId durationMs)
  | backoff {task executionId durationMs errorType errorMessage now retryPolicy uniform record}
      (same : record.job.id = task.jobId) (token : record.job.lockToken = task.token)
      (held : task.token.isSome = true) (more : task.attempt < record.job.maxAttempts) :
      Move state (.finishing task executionId durationMs (.failure errorType errorMessage)) record
        ((record.chargeAttempt now executionId task.attempt durationMs errorType
          errorMessage).backoff now retryPolicy uniform)
  | bury {task executionId durationMs errorType errorMessage now record}
      (same : record.job.id = task.jobId) (token : record.job.lockToken = task.token)
      (held : task.token.isSome = true) (spent : record.job.maxAttempts ≤ task.attempt) :
      Move state (.finishing task executionId durationMs (.failure errorType errorMessage)) record
        ((record.chargeAttempt now executionId task.attempt durationMs errorType
          errorMessage).moveToDlq now (state.draw task.jobId) errorMessage)
  | requeueClaimed {session sweep record} (swept : session.sweep? = some sweep)
      (orphan : record.job.id ∈ sweep.orphans) (claimed : record.job.status = .claimed) :
      Move state session record record.requeue
  | requeueLost {session sweep record} (swept : session.sweep? = some sweep)
      (orphan : record.job.id ∈ sweep.orphans) (running : record.job.status = .running)
      (more : record.job.attempts + 1 < record.job.maxAttempts) :
      Move state session record (record.chargeLost sweep.now).requeue
  | buryLost {session sweep record} (swept : session.sweep? = some sweep)
      (orphan : record.job.id ∈ sweep.orphans) (running : record.job.status = .running)
      (spent : record.job.maxAttempts ≤ record.job.attempts + 1) :
      Move state session record ((record.chargeLost sweep.now).moveToDlq sweep.now
        (state.draw record.job.id) (WORKER_LOST_ERROR ++ ": " ++ workerLostMessage))
  | unassign {session sweep record} (swept : session.sweep? = some sweep)
      (chosen : record.job.id ∈ sweep.unassigned) (other : record.job.id ∉ sweep.orphans) :
      Move state session record record.unassign
  | write {tick write record} (member : write ∈ tick.writes)
      (same : record.job.id = write.jobId) (found : record.job.status = write.found)
      (parked : write.found.parked = true) :
      Move state (.tick tick) record (write.change.write record)
  | cancel {jobId now record} (same : record.job.id = jobId)
      (cancellable : record.job.status.cancellable = true) :
      Move state (.cancelling jobId) record (record.cancel now)
  | retry {jobId entries now record} (same : record.job.id = jobId)
      (retryable : record.job.status.retryable = true)
      (superseded : ∀ entry ∈ record.deadLetters, entry.replayedAt = none → entry.id ∈ entries)
      (opened : ∀ entry ∈ record.deadLetters, entry.id ∈ entries → entry.replayedAt = none) :
      Move state (.superseded jobId entries) record ((record.consume now entries).reset now)
  | replay {entryId jobId now record} (same : record.job.id = jobId)
      (dead : record.job.status = .dead)
      (opened : ∃ entry ∈ record.deadLetters, entry.id = entryId ∧ entry.replayedAt = none) :
      Move state (.replayingJob entryId jobId) record ((record.consume now [entryId]).reset now)

namespace JobRecord
variable (now : Time) (record : JobRecord)

/-! The columns which no transition changes. -/

/-- The identity of a job: what it was created with. -/
def identity (record : JobRecord) : Uuid × Uuid × Nat × Option (List Uuid) :=
  (record.job.id, record.job.queueId, record.job.maxAttempts, record.job.dependsOn)

@[simp] theorem detach_job_status (id : Uuid) :
    (record.detach id).job.status = record.job.status := by
  unfold detach
  split <;> rfl

@[simp] theorem detach_identity (id : Uuid) : (record.detach id).identity = record.identity := by
  unfold detach
  split <;> rfl

@[simp] theorem write_identity (change : Change) :
    (change.write record).identity = record.identity := by
  cases change <;> rfl

end JobRecord

theorem Move.identity {state : System} {session : Session} {record after : JobRecord}
    (move : Move state session record after) : after.identity = record.identity := by
  cases move with
  | detach => exact record.detach_identity _
  | write => exact record.write_identity _
  | _ => rfl

theorem Move.job_id {state : System} {session : Session} {record after : JobRecord}
    (move : Move state session record after) : after.job.id = record.job.id :=
  congrArg Prod.fst move.identity

theorem Move.queueId {state : System} {session : Session} {record after : JobRecord}
    (move : Move state session record after) : after.job.queueId = record.job.queueId :=
  congrArg (fun identity => identity.2.1) move.identity

theorem Move.maxAttempts {state : System} {session : Session} {record after : JobRecord}
    (move : Move state session record after) : after.job.maxAttempts = record.job.maxAttempts :=
  congrArg (fun identity => identity.2.2.1) move.identity

theorem Move.dependsOn {state : System} {session : Session} {record after : JobRecord}
    (move : Move state session record after) : after.job.dependsOn = record.job.dependsOn :=
  congrArg (fun identity => identity.2.2.2) move.identity

end Pulse
