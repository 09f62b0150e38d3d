import Pulse.System.Commits
import Pulse.System.Kept

/-! What a commit publishes, whichever tokens `claim_jobs` hands out. -/
namespace Pulse
open Library.RowLock

section Commits
variable (env : Environment) (state : System) (sid : Sid)

/-- The three kinds of commit: rows of `jobs` and `workers` are updated, a tick
publishes, or a request of one transaction does. -/
inductive Publishes : Session → Patch → Prop where
  | rows {next patch} (quiet : next.locks = []) (kept : ∀ record : JobRecord, record.Kept (patch.job record))
      (inserted : patch.newJobs = []) (deleted : patch.deletedJobs = [])
      (queues : patch.queues = id) (policies : patch.retryPolicies = id)
      (templates : patch.scheduledJobs = id)
      (workers : ((patch.workers state.db.workers).map Worker.id).Sublist
        (state.db.workers.map Worker.id)) : Publishes next patch
  | tick {current locks patch} (running : state.sessions sid = .tick current)
      (made : tickCommit state current = .commit .idle locks patch) : Publishes .idle patch
  | api {now call locks patch} (idle : state.sessions sid = .idle)
      (answers : Answers env state now call locks patch)
      (free : locks.any (state.waits sid) = false) : Publishes .idle patch

end Commits

section Effects
variable {env : Environment} {state : System} {sid : Sid} {next : Session} {locks : List Lock}
  {patch : Patch}

theorem onJob_kept {jobId : Uuid} {f : JobRecord → JobRecord}
    (keeps : ∀ record : JobRecord, record.Kept (f record)) (record : JobRecord) :
    record.Kept (onJob jobId f record) := by
  unfold onJob onId
  split
  · exact keeps record
  · exact .refl record

theorem claimWrite_kept {workerId : Uuid} {now : Time} {rows : List ClaimedRow}
    (record : JobRecord) : record.Kept (claimWrite workerId now rows record) := by
  unfold claimWrite
  split
  · exact record.claim_kept ..
  · exact .refl record

theorem finishWrite_kept {task : Task} {executionId : Uuid} {durationMs : Int} {outcome : Outcome}
    {now : Time} {uniform : ℚ} (record : JobRecord) :
    record.Kept (finishWrite state task executionId durationMs outcome now uniform record) := by
  cases outcome with
  | success => exact record.complete_kept ..
  | failure => exact (record.chargeAttempt_kept ..).trans (JobRecord.applyFailure_kept ..)

theorem sweepWrite_kept {sweep : Sweep} (record : JobRecord) :
    record.Kept (sweepWrite state sweep record) := by
  unfold sweepWrite
  split
  · exact record.reap_kept ..
  · split
    · exact record.unassign_kept
    · exact .refl record

theorem tickWrite_kept {writes : List RowWrite} (record : JobRecord) :
    record.Kept (tickWrite writes record) := by
  unfold tickWrite
  split
  · exact record.write_kept _
  · exact .refl record

theorem Session.effect_publishes {input : Input}
    (made : (state.sessions sid).effect env state sid input = some (.commit next locks patch)) :
    Publishes env state sid next patch := by
  have closes := Session.effect_closes made
  have quiet : ∀ {patch : Patch} {next : Session}, next.locks = [] →
      (∀ record : JobRecord, record.Kept (patch.job record)) → patch.newJobs = [] →
      patch.deletedJobs = [] → patch.queues = id → patch.retryPolicies = id →
      patch.scheduledJobs = id → patch.workers = id → Publishes env state sid next patch := by
    intro patch next quiet kept inserted deleted queues policies templates workers
    refine .rows quiet kept inserted deleted queues policies templates ?_
    rw [workers]
    exact List.Sublist.refl _
  generalize running : state.sessions sid = session at closes
  cases closes with
  | claim =>
    refine quiet ?_ claimWrite_kept rfl rfl rfl rfl rfl rfl
    split <;> rfl
  | start => exact quiet rfl (onJob_kept fun record => record.start_kept ..) rfl rfl rfl rfl rfl rfl
  | finish => exact quiet rfl (onJob_kept finishWrite_kept) rfl rfl rfl rfl rfl rfl
  | worker =>
    refine .rows rfl JobRecord.Kept.refl rfl rfl rfl rfl rfl ?_
    rw [map_ids (WorkerUpdate.onId_id _ _ _ _)]
  | sweep =>
    refine .rows rfl sweepWrite_kept rfl rfl rfl rfl rfl ?_
    refine (List.filter_sublist.map _).trans ?_
    rw [map_ids (markDead_id _)]
  | tick => exact .tick running rfl
  | cancel =>
    exact quiet rfl (onJob_kept fun record => record.cancel_kept _) rfl rfl rfl rfl rfl rfl
  | requeue =>
    exact quiet rfl (onJob_kept fun record => record.requeueLetters_kept ..) rfl rfl rfl rfl rfl rfl

theorem Request.effect_publishes {request : Request} (idle : state.sessions sid = .idle)
    (made : request.effect env state sid = some (.commit next locks patch))
    (free : locks.any (state.waits sid) = false) : Publishes env state sid next patch := by
  obtain ⟨now, call, rfl, rfl, answers⟩ := Request.effect_closes made
  exact .api idle answers free

/-- A commit leaves its session without locks. -/
theorem Publishes.quiet (publishes : Publishes env state sid next patch) : next.locks = [] := by
  cases publishes with
  | rows quiet => exact quiet
  | tick | api => rfl

/-- A tick is left by its commit. -/
theorem Publishes.not_tick (publishes : Publishes env state sid next patch) (tick : Tick) :
    next ≠ .tick tick := by
  rintro rfl
  have quiet := publishes.quiet
  simp [Session.locks] at quiet

/-- The ids of what a transaction inserts are new and distinct. -/
theorem Publishes.inserted (publishes : Publishes env state sid next patch)
    (positive : 0 < state.nextUuid) : (patch.newJobs.map Job.id).Nodup ∧
      ∀ job ∈ patch.newJobs, state.nextUuid ≤ job.id ∧
        job.id < 2 * state.nextUuid + patch.newJobs.length := by
  cases publishes with
  | rows _ _ inserted => simp [inserted]
  | @tick current _ _ _ made =>
    cases made
    refine ⟨?_, ?_⟩
    · rw [numbered_ids]
      exact nodup_counted ..
    · intro job listed
      obtain ⟨spawned, _, index, within, rfl⟩ := numbered_member listed
      refine ⟨Nat.le_add_right .., ?_⟩
      simp only [numbered, List.length_mapIdx]
      lia
  | @api now _ _ _ _ answers =>
    cases answers with
    | @createJob body created made =>
      cases created with
      | none => simp
      | some job =>
        obtain ⟨queue, _, _, _, _, rfl⟩ := createJob_row made
        simp only [Option.toList_some, List.map_cons, List.map_nil, List.nodup_singleton,
          List.mem_singleton, forall_eq, JobCreate.row, List.length_singleton, true_and]
        lia
    | @createBatch body jobs made =>
      obtain ⟨queue, _, rfl⟩ := createBatch_rows made
      refine ⟨?_, ?_⟩
      · rw [batch_rows_ids]
        exact nodup_counted ..
      · intro job listed
        obtain ⟨index, within, id, _⟩ := mem_batch_rows listed
        have length : (body.rows state.db now (state.nextUuid + 1) state.nextUuid queue).length =
            body.jobs.length := by simp [JobBatchCreate.rows]
        rw [id, length]
        lia
    | deleteSchedule made | deleteQueue made =>
      cases made
      simp
    | _ => simp

/-- Every job which a commit leaves is kept. -/
theorem Publishes.kept (publishes : Publishes env state sid next patch) (record : JobRecord) :
    record.Kept (patch.job record) := by
  cases publishes with
  | rows _ kept => exact kept record
  | tick _ made =>
    cases made
    exact tickWrite_kept record
  | api _ answers =>
    cases answers with
    | deleteSchedule made =>
      cases made
      exact record.detach_kept _
    | deleteQueue made =>
      cases made
      exact .refl record
    | _ => exact .refl record

/-- Where a job of the new database comes from. -/
theorem Publishes.origin (publishes : Publishes env state sid next patch) {record : JobRecord}
    (member : record ∈ (state.db.apply patch).jobs) :
    (∃ old ∈ state.db.jobs, old.job.id ∉ patch.deletedJobs ∧ patch.job old = record ∧
      old.Kept record) ∨ ∃ job ∈ patch.newJobs, { job } = record := by
  rcases mem_apply_jobs.mp member with ⟨old, present, stays, rfl⟩ | fresh
  · exact .inl ⟨old, present, stays, rfl, publishes.kept old⟩
  · exact .inr fresh

/-- The rows of the tables without dead letters and executions which a commit leaves, by
their ids: at most one is new. -/
structure Patch.Grows (patch : Patch) (db : Db) (drawn : Uuid) : Prop where
  queues : ((patch.queues db.queues).map Queue.id).Sublist (db.queues.map Queue.id ++ [drawn])
  policies : ((patch.retryPolicies db.retryPolicies).map RetryPolicy.id).Sublist
    (db.retryPolicies.map RetryPolicy.id ++ [drawn])
  workers : ((patch.workers db.workers).map Worker.id).Sublist
    (db.workers.map Worker.id ++ [drawn])
  templates : ((patch.scheduledJobs db.scheduledJobs).map ScheduledJob.id).Sublist
    (db.scheduledJobs.map ScheduledJob.id ++ [drawn])

theorem Publishes.grows (publishes : Publishes env state sid next patch) :
    patch.Grows state.db state.nextUuid := by
  have fewer : ∀ {ids kept : List Uuid}, kept.Sublist ids → kept.Sublist (ids ++ [state.nextUuid]) :=
    fun sublist => sublist.trans (List.sublist_append_left ..)
  have same : ∀ {ids kept : List Uuid}, kept = ids → kept.Sublist (ids ++ [state.nextUuid]) :=
    fun same => same ▸ List.sublist_append_left ..
  cases publishes with
  | rows _ _ _ _ queues policies templates workers =>
    exact ⟨same (by rw [queues]; rfl), same (by rw [policies]; rfl), fewer workers,
      same (by rw [templates]; rfl)⟩
  | tick _ made =>
    cases made
    refine ⟨same rfl, same rfl, same rfl, same ?_⟩
    refine map_ids (fun row => ?_) _
    exact writes_keep (fun first row => row.id = first.id) (fun _ => rfl)
      (fun _ row change kept => (change.write_id row).trans kept) _ row
  | api _ answers =>
    cases answers with
    | registerWorker => exact ⟨same rfl, same rfl, by simp, same rfl⟩
    | createJob | createBatch => exact ⟨same rfl, same rfl, same rfl, same rfl⟩
    | createSchedule made =>
      exact ⟨same rfl, same rfl, same rfl, by simp [(createSchedule_row made).1]⟩
    | updateSchedule made =>
      exact ⟨same rfl, same rfl, same rfl,
        same (map_ids (onId_id fun row => (updateSchedule_id made row).1) _)⟩
    | deleteSchedule made =>
      cases made
      exact ⟨same rfl, same rfl, same rfl, fewer (List.filter_sublist.map _)⟩
    | createQueue made => exact ⟨by simp [(createQueue_row made).1], same rfl, same rfl, same rfl⟩
    | updateQueue made =>
      obtain ⟨rfl, _⟩ := updateQueue_write made
      exact ⟨same (map_ids (onId_id fun _ => by rfl) _), same rfl, same rfl, same rfl⟩
    | setPaused made =>
      cases setPaused_write made
      exact ⟨same (map_ids (onId_id fun _ => by rfl) _), same rfl, same rfl, same rfl⟩
    | deleteQueue made =>
      cases made
      exact ⟨fewer (List.filter_sublist.map _), same rfl, same rfl,
        fewer (List.filter_sublist.map _)⟩
    | createRetryPolicy made =>
      exact ⟨same rfl, by simp [createRetryPolicy_id made], same rfl, same rfl⟩
    | updateRetryPolicy made =>
      cases updateRetryPolicy_write made
      exact ⟨same rfl, same (map_ids (onId_id fun _ => by rfl) _), same rfl, same rfl⟩
    | deleteRetryPolicy =>
      refine ⟨same (map_ids (fun row => ?_) _), fewer (List.filter_sublist.map _), same rfl, same rfl⟩
      split <;> rfl

end Effects

end Pulse
