import Pulse.System.Step

/-! What a session in each stage holds and relies on: its locks, the rows they
protect, and the tokens which its claim wrote. -/
namespace Pulse
open Library.RowLock

/-- A status a scheduler tick may still write over. -/
def JobStatus.parked : JobStatus → Bool
  | .scheduled | .retrying | .cancelled => true
  | _ => false

/-- A status in which no worker has the job and none may claim it, and no retry or
replay takes it. -/
def JobStatus.resting : JobStatus → Bool
  | .scheduled | .completed | .cancelled => true
  | _ => false

/-- The reaper's transaction once it has swept. -/
def Session.sweep? : Session → Option Sweep
  | .reaperSwept sweep | .reaperPruned sweep => some sweep
  | _ => none

namespace Session

/-- The locks which the statements so far have been granted. -/
def locks : Session → List Lock
  | .claimLocked queueId _ _ _ => [(.queueClaims queueId, .update)]
  | .claimWritten queueId workerId _ rows =>
    (.queueClaims queueId, .update) ::
      if rows = [] then [] else
        (.worker workerId, .keyShare) :: rows.map fun row => (.job row.jobId, .update)
  | .starting task | .finishing task _ _ _ => [(.job task.jobId, .update)]
  | .reaperLocked | .reaperStale _ _ | .reaperRead _ _ => [(.reaperLock, .update)]
  | .reaperMarked _ lost =>
    (.reaperLock, .update) :: lost.map fun id => (.worker id, .noKeyUpdate)
  | .reaperSwept sweep | .reaperPruned sweep =>
    (.reaperLock, .update) :: (sweep.lost.map fun id => (.worker id, .noKeyUpdate)) ++
      (sweep.orphans.map fun id => (.job id, .update)) ++
      (sweep.removed.map fun id => (.worker id, .update)) ++
      sweep.unassigned.map fun id => (.job id, .noKeyUpdate)
  | .tick current =>
    (.schedulerLock, .update) :: current.writes.map fun write => (.job write.jobId, .noKeyUpdate)
  | .cancelling jobId | .retrying jobId => [(.job jobId, .update)]
  | .superseded jobId entries =>
    (.job jobId, .update) :: entries.map fun id => (.deadLetter id, .noKeyUpdate)
  | .replaying entryId _ => [(.deadLetter entryId, .update)]
  | .replayingJob entryId jobId => [(.deadLetter entryId, .update), (.job jobId, .update)]
  | _ => []

/-- The jobs whose rows the session has locked for writing. -/
def rows : Session → List Uuid
  | .claimWritten _ _ _ rows => rows.map ClaimedRow.jobId
  | .starting task | .finishing task _ _ _ => [task.jobId]
  | .reaperSwept sweep | .reaperPruned sweep => sweep.orphans ++ sweep.unassigned
  | .tick current => current.writes.map RowWrite.jobId
  | .cancelling jobId | .retrying jobId | .superseded jobId _ | .replayingJob _ jobId => [jobId]
  | _ => []

/-- What the session knows about a job whose row it has locked. -/
def Expects : Session → JobRecord → Prop
  | .claimWritten queueId _ _ rows, record =>
    record.job.status = .queued ∧ record.job.queueId = queueId ∧
      ∀ row ∈ rows, row.jobId = record.job.id → row.attempts = record.job.attempts
  | .starting task, record | .finishing task _ _ _, record => record.job.lockToken = task.token
  | .reaperSwept sweep, record | .reaperPruned sweep, record =>
    record.job.id ∈ sweep.orphans → record.job.status.inFlight = true
  | .tick current, record =>
    ∀ write ∈ current.writes, write.jobId = record.job.id → record.job.status = write.found
  | .cancelling _, record => record.job.status.cancellable = true
  | .retrying _, record => record.job.status.retryable = true
  | .superseded _ entries, record =>
    record.job.status.retryable = true ∧
      ∀ entry ∈ record.deadLetters, entry.replayedAt = none ↔ entry.id ∈ entries
  | .replayingJob _ _, record => record.job.status = .dead
  | _, _ => True

/-- The dead letter which a replay has locked, with its job. -/
def replays : Session → Option (Uuid × Uuid)
  | .replaying entryId jobId | .replayingJob entryId jobId => some (entryId, jobId)
  | _ => none

/-- The jobs which a tick has selected and not yet written. -/
def targetIds : Session → List Uuid
  | .tick current =>
    current.targets.map Target.jobId ++
      match current.stage with
      | .deciding pending => pending.map Prod.fst
      | _ => []
  | _ => []

/-- The tokens written by the claim which led to this stage. -/
def tokens : Session → List Uuid
  | .claimWritten _ _ _ rows | .claimCommitted _ rows => rows.map ClaimedRow.token
  | .handing _ tasks => tasks.map Task.written
  | .execute task | .starting task | .handling task _ | .returned task _ _ _
  | .finishing task _ _ _ => [task.written]
  | _ => []

end Session

/-- The state in which `create_job`, `create_batch` and a cron spawn insert a row. -/
structure Job.Fresh (job : Job) : Prop where
  status : job.status = .queued ∨ job.status = .scheduled
  attempts : job.attempts = 0
  lockToken : job.lockToken = none
  workerId : job.workerId = none
  maxAttempts : 0 < job.maxAttempts

/-- What holds of a stage whatever the database contains. -/
def Session.Armed : Session → Prop
  | .claimWritten _ _ _ rows => (rows.map ClaimedRow.jobId).Nodup
  | .starting task | .handling task _ | .returned task _ _ _ | .finishing task _ _ _ =>
    task.token.isSome = true
  | .tick current => (∀ write ∈ current.writes, write.found.parked = true) ∧
      ∀ job ∈ current.spawned, job.Fresh
  | _ => True

namespace Session

/-- A locked row is locked in a mode which excludes other writers. -/
theorem rows_locked {session : Session} {id : Uuid} (member : id ∈ session.rows) :
    ∃ mode : Mode, mode.writes = true ∧ (Key.job id, mode) ∈ session.locks := by
  cases session with
  | claimWritten queueId workerId now rows =>
    obtain ⟨row, present, rfl⟩ := List.mem_map.mp member
    have nonempty : rows ≠ [] := List.ne_nil_of_mem present
    refine ⟨.update, rfl, ?_⟩
    simp only [locks, nonempty, if_false, List.mem_cons, List.mem_map, reduceCtorEq,
      Prod.mk.injEq, false_and, false_or]
    exact ⟨row, present, rfl, trivial⟩
  | starting task | finishing task =>
    cases List.mem_singleton.mp member
    exact ⟨.update, rfl, by simp [locks]⟩
  | reaperSwept sweep | reaperPruned sweep =>
    rcases List.mem_append.mp member with orphan | chosen
    · exact ⟨.update, rfl, by simp [locks, orphan]⟩
    · exact ⟨.noKeyUpdate, rfl, by simp [locks, chosen]⟩
  | tick tick =>
    obtain ⟨write, present, rfl⟩ := List.mem_map.mp member
    exact ⟨.noKeyUpdate, rfl, List.mem_cons_of_mem _ (List.mem_map.mpr ⟨write, present, rfl⟩)⟩
  | cancelling | retrying | superseded | replayingJob =>
    cases List.mem_singleton.mp member
    exact ⟨.update, rfl, by simp [locks]⟩
  | _ => cases member

theorem replays_locked {session : Session} {entryId jobId : Uuid}
    (replay : session.replays = some (entryId, jobId)) :
    (Key.deadLetter entryId, Mode.update) ∈ session.locks := by
  cases session with
  | replaying | replayingJob =>
    cases Option.some.inj replay
    simp [locks]
  | _ => cases replay

end Session

end Pulse
