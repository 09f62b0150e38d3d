import Pulse.Safety.References

/-! Which transactions call `notify_jobs_available`. PostgreSQL delivers a NOTIFY when its
transaction commits, and drops it with the transaction. -/
namespace Pulse
open Library.RowLock Library.Lts

/-! The calls, each as the source guards it. -/

/-- `jobs_requeued` of `reap_dead_workers`. -/
def jobsRequeued (db : Db) (sweep : Sweep) : Nat :=
  db.jobs.countP fun record => record.job.id ∈ sweep.orphans &&
    !(record.job.status = .running && record.job.maxAttempts ≤ record.job.attempts + 1)

/-- `retry_job`, `replay_dlq_entry`, `tick` and `run_reaper_forever`. -/
def Session.notifies (db : Db) : Session → Bool
  | .superseded _ _ | .replayingJob _ _ => true
  | .tick current => current.writes ≠ [] || current.spawned ≠ []
  | .reaperSwept sweep | .reaperPruned sweep => jobsRequeued db sweep ≠ 0
  | _ => false

/-- `create_job` has inserted a queued job. -/
def insertsQueued : Except ApiError (Option Job) → Bool
  | .ok (some job) => job.status = .queued
  | _ => false

/-- `create_job`, `create_batch` and `resume_queue`. -/
def ApiCall.notifies (state : System) (now : Time) : ApiCall → Bool
  | .createJob body => insertsQueued (Pulse.createJob state.db now state.nextUuid body)
  | .createBatch body => (initialStatusAndRunAt now body.runAt false).1 = .queued
  | .setPaused _ isPaused => !isPaused
  | _ => false

def Effect.commits : Effect → Bool
  | .commit _ _ _ => true
  | _ => false

/-- The step commits a transaction which has notified the workers. -/
def delivers (env : Environment) (state : System) : Action → Bool
  | .begin _ (.api now call) => (call.effect env state now).commits && call.notifies state now
  | .next sid input =>
    ((state.sessions sid).effect env state sid input).any Effect.commits &&
      (state.sessions sid).notifies state.db
  | _ => false

/-! The jobs which a worker may claim as far as their queue's slots reach. -/

def Db.unpaused (db : Db) (queueId : Uuid) : Bool :=
  (db.findQueue queueId).any fun queue => !queue.isPaused

/-- The queued jobs in queues which are not paused. -/
def Db.linedUp (db : Db) : List Uuid :=
  (db.jobs.filter fun record =>
    record.job.status = .queued && db.unpaused record.job.queueId).map fun record => record.job.id

theorem mem_linedUp {db : Db} {jobId : Uuid} : jobId ∈ db.linedUp ↔ ∃ record ∈ db.jobs,
    record.job.id = jobId ∧ record.job.status = .queued ∧ db.unpaused record.job.queueId = true := by
  simp only [Db.linedUp, List.mem_map, List.mem_filter, Bool.and_eq_true, decide_eq_true_eq]
  constructor
  · rintro ⟨record, ⟨member, queued, unpaused⟩, same⟩
    exact ⟨record, member, same, queued, unpaused⟩
  · rintro ⟨record, member, same, queued, unpaused⟩
    exact ⟨record, ⟨member, queued, unpaused⟩, same⟩

section Commits
variable {env : Environment} {state after : System} {sid : Sid} {session next : Session}
  {locks : List Lock} {patch : Patch} {record : JobRecord}

theorem finishWrite_queued {task : Task} {executionId : Uuid} {durationMs : Int} {outcome : Outcome}
    {now : Time} {uniform : ℚ} :
    (finishWrite state task executionId durationMs outcome now uniform record).job.status ≠
      .queued := by
  cases outcome with
  | success => exact JobStatus.noConfusion
  | failure =>
    simp only [finishWrite, JobRecord.applyFailure]
    split <;> exact JobStatus.noConfusion

/-- Only the row of one job is written, and it is not queued by that. -/
theorem onJob_queued {jobId : Uuid} {f : JobRecord → JobRecord}
    (elsewhere : ∀ record : JobRecord, (f record).job.status ≠ .queued)
    (queued : (onJob jobId f record).job.status = .queued) : record.job.status = .queued := by
  by_cases same : record.job.id = jobId
  · rw [onJob_same same] at queued
    exact absurd queued (elsewhere record)
  · rwa [onJob_other same] at queued

/-- The sweep requeues whatever it does not bury, and counts it. -/
theorem sweepWrite_queued {sweep : Sweep} (member : record ∈ state.db.jobs)
    (queued : (sweepWrite state sweep record).job.status = .queued) :
    record.job.status = .queued ∨ jobsRequeued state.db sweep ≠ 0 := by
  unfold sweepWrite at queued
  split at queued
  · rename_i orphan
    right
    have counted : 0 < jobsRequeued state.db sweep := by
      refine List.countP_pos_iff.mpr ⟨record, member, ?_⟩
      rw [Bool.and_eq_true, decide_eq_true_eq, Bool.not_eq_true', Bool.and_eq_false_iff]
      refine ⟨orphan, ?_⟩
      unfold JobRecord.reap at queued
      split at queued
      · dsimp only at queued
        split at queued
        · cases queued
        · rename_i more
          refine .inr (decide_eq_false ?_)
          exact more
      · rename_i waiting
        exact .inl (by simpa using waiting)
    exact Nat.ne_of_gt counted
  · split at queued <;> exact .inl queued

/-- Whatever a session of several statements queues, it has notified. -/
theorem Closes.queued (closes : Closes env state session next patch) (member : record ∈ state.db.jobs)
    (queued : (patch.job record).job.status = .queued) :
    record.job.status = .queued ∨ session.notifies state.db = true := by
  cases closes with
  | @claim _ workerId now rows =>
    dsimp only at queued
    by_cases locked : record.job.id ∈ rows.map ClaimedRow.jobId
    · obtain ⟨row, _, _, written⟩ := @claimWrite_own workerId now rows record locked
      rw [written] at queued
      cases queued
    · rw [claimWrite_other locked] at queued
      exact .inl queued
  | start | cancel => exact .inl (onJob_queued (fun _ => JobStatus.noConfusion) queued)
  | finish => exact .inl (onJob_queued (fun _ => finishWrite_queued) queued)
  | worker => exact .inl queued
  | @sweep _ sweep running =>
    rcases sweepWrite_queued member queued with before | counted
    · exact .inl before
    · right
      rcases running with rfl | rfl <;> simpa [Session.notifies] using counted
  | @tick current =>
    dsimp only at queued
    by_cases locked : record.job.id ∈ current.writes.map RowWrite.jobId
    · right
      obtain ⟨write, listed, _⟩ := tickWrite_own locked
      have written : current.writes ≠ [] := List.ne_nil_of_mem listed
      simp [Session.notifies, written]
    · rw [tickWrite_other locked] at queued
      exact .inl queued
  | requeue running =>
    right
    rcases running with rfl | ⟨_, _, rfl⟩ <;> rfl

theorem Closes.inserts (closes : Closes env state session next patch) {job : Job}
    (inserted : job ∈ patch.newJobs) : session.notifies state.db = true := by
  cases closes with
  | @tick current =>
    obtain ⟨spawned, listed, _⟩ := numbered_member inserted
    have spawning : current.spawned ≠ [] := List.ne_nil_of_mem listed
    simp [Session.notifies, spawning]
  | _ => cases inserted

theorem Closes.queues (closes : Closes env state session next patch) :
    patch.queues = id := by
  cases closes <;> rfl

/-- A request which opens a queue has notified. -/
theorem Answers.unpaused {now : Time} {call : ApiCall} (answers : Answers env state now call locks patch)
    {queueId projectId : Uuid} (housed : state.db.projectOf queueId = some projectId)
    (opened : (state.db.apply patch).unpaused queueId = true) :
    state.db.unpaused queueId = true ∨ call.notifies state now = true := by
  obtain ⟨queue, found, _⟩ := Option.map_eq_some_iff.mp housed
  have stays : ∀ {rows : List Queue}, (state.db.apply patch).queues = rows →
      rows.find? (fun row => row.id = queueId) = some queue → state.db.unpaused queueId = true := by
    intro rows same kept
    rw [Db.unpaused, Db.findQueue, same, kept] at opened
    rw [Db.unpaused, found]
    exact opened
  have mapped : ∀ {f : Queue → Queue}, (∀ row, (f row).id = row.id) →
      (state.db.apply patch).queues = state.db.queues.map f →
      (∀ row, (f row).isPaused = row.isPaused) → state.db.unpaused queueId = true := by
    intro f keeps same paused
    rw [Db.unpaused, Db.findQueue, same, find_map keeps] at opened
    rw [Db.findQueue] at found
    rw [found] at opened
    rw [Db.unpaused, Db.findQueue, found]
    simpa [paused] using opened
  cases answers with
  | createQueue => exact .inl (stays rfl (find_append found _))
  | updateQueue made =>
    obtain ⟨rfl, _⟩ := updateQueue_write made
    refine .inl (mapped (onId_id fun _ => by rfl) rfl ?_)
    intro row
    unfold onId
    split <;> rfl
  | @setPaused id isPaused _ made =>
    cases setPaused_write made
    cases isPaused with
    | false => exact .inr rfl
    | true =>
      left
      rw [Db.unpaused, Db.findQueue, Db.apply, find_map (onId_id fun _ => by rfl)] at opened
      rw [Db.findQueue] at found
      rw [found] at opened
      rw [Db.unpaused, Db.findQueue, found]
      simp only [Option.map_some, Option.any_some, onId] at opened ⊢
      split at opened
      · cases opened
      · exact opened
  | @deleteQueue id _ _ made =>
    cases made
    left
    by_cases same : queueId = id
    · rw [Db.unpaused] at opened
      obtain ⟨kept, listed, _⟩ := (Option.any_eq_true ..).mp opened
      have member := List.mem_of_find?_eq_some listed
      have named : kept.id = queueId := by simpa using List.find?_some listed
      have other := (List.mem_filter.mp member).2
      simp [named, same] at other
    · refine stays rfl (find_filter found ?_)
      have named : queue.id = queueId := by simpa using List.find?_some found
      simpa [named] using same
  | deleteSchedule made =>
    cases made
    exact .inl (stays rfl found)
  | deleteRetryPolicy =>
    refine .inl (mapped (fun row => ?_) rfl fun row => ?_) <;> split <;> rfl
  | _ => exact .inl (stays rfl found)

/-- A request which inserts a queued job has notified. -/
theorem Answers.inserts {now : Time} {call : ApiCall} (answers : Answers env state now call locks patch)
    {job : Job} (inserted : job ∈ patch.newJobs) (queued : job.status = .queued) :
    call.notifies state now = true := by
  cases answers with
  | @createJob body created made =>
    cases created with
    | none => cases inserted
    | some job =>
      cases List.mem_singleton.mp inserted
      rw [ApiCall.notifies, made]
      exact decide_eq_true queued
  | createBatch made =>
    obtain ⟨queue, _, rfl⟩ := createBatch_rows made
    obtain ⟨_, _, _, _, _, _, status, _⟩ := mem_batch_rows inserted
    rw [status] at queued
    exact decide_eq_true queued
  | deleteSchedule made | deleteQueue made =>
    cases made
    cases inserted
  | _ => cases inserted

/-- A request changes the status of no job. -/
theorem Answers.status {now : Time} {call : ApiCall} (answers : Answers env state now call locks patch)
    (record : JobRecord) : (patch.job record).job.status = record.job.status := by
  cases answers with
  | deleteSchedule made =>
    cases made
    exact record.detach_job_status _
  | deleteQueue made =>
    cases made
    rfl
  | _ => rfl

/-- The step after which a job is lined up, and before which it was not, has notified. -/
theorem step_delivers (references : References state) {action : Action}
    (taken : step env state action = some after) {jobId : Uuid} (lined : jobId ∈ after.db.linedUp)
    (fresh : jobId ∉ state.db.linedUp) : delivers env state action = true := by
  have unchanged : after.db.jobs = state.db.jobs → after.db.queues = state.db.queues → False := by
    intro jobs queues
    refine fresh ?_
    rwa [Db.linedUp, show after.db.unpaused = state.db.unpaused by
      funext queueId; rw [Db.unpaused, Db.unpaused, Db.findQueue, Db.findQueue, queues],
      jobs] at lined
  -- A job which was there before, and is now in an unpaused queue, was queued or has been queued.
  have published : ∀ {patch : Patch} {notified : Prop},
      (∀ record : JobRecord, record.Kept (patch.job record)) → jobId ∈ (state.db.apply patch).linedUp →
      (∀ record ∈ state.db.jobs, (patch.job record).job.status = .queued →
        record.job.status = .queued ∨ notified) →
      (∀ job ∈ patch.newJobs, job.status = .queued → notified) →
      (∀ queueId projectId, state.db.projectOf queueId = some projectId →
        (state.db.apply patch).unpaused queueId = true →
        state.db.unpaused queueId = true ∨ notified) → notified := by
    intro patch notified kept lined queues inserts opens
    obtain ⟨record, member, same, queued, opened⟩ := mem_linedUp.mp lined
    rcases mem_apply_jobs.mp member with ⟨old, present, _, rfl⟩ | ⟨job, inserted, rfl⟩
    · rcases queues old present queued with before | notified
      · obtain ⟨projectId, housed⟩ := references.housed old present
        rw [(kept old).queueId] at opened
        rcases opens _ projectId housed opened with unpaused | notified
        · exact absurd (mem_linedUp.mpr ⟨old, present, (kept old).job_id ▸ same, before, unpaused⟩)
            fresh
        · exact notified
      · exact notified
    · exact inserts job inserted queued
  cases step_inverted taken with
  | @begin sid request effect _ idle made performed =>
    cases effect with
    | hold =>
      obtain ⟨_, rfl⟩ := System.perform_hold performed
      exact (unchanged rfl rfl).elim
    | commit next locks patch =>
      obtain ⟨free, rfl⟩ := System.perform_commit performed
      have publishes := Request.effect_publishes idle made free
      obtain ⟨now, call, rfl, rfl, answers⟩ := Request.effect_closes made
      have commits : (call.effect env state now).commits = true := by
        rw [Option.some.inj made]
        rfl
      simp only [delivers, commits, Bool.true_and]
      refine published publishes.kept lined ?_ (fun job => answers.inserts) fun _ _ => answers.unpaused
      intro record _ queued
      rw [answers.status] at queued
      exact .inl queued
    | rollback =>
      cases Option.some.inj performed
      exact (unchanged rfl rfl).elim
  | @next sid input effect _ _ made performed =>
    cases effect with
    | hold =>
      obtain ⟨_, rfl⟩ := System.perform_hold performed
      exact (unchanged rfl rfl).elim
    | commit next locks patch =>
      obtain ⟨_, rfl⟩ := System.perform_commit performed
      have publishes := Session.effect_publishes made
      have closes := Session.effect_closes made
      simp only [delivers, made, Option.any_some, Effect.commits, Bool.true_and]
      refine published publishes.kept lined (fun record member => closes.queued member)
        (fun job inserted _ => closes.inserts inserted) ?_
      intro queueId _ _ opened
      rw [Db.unpaused, Db.findQueue, Db.apply, closes.queues] at opened
      exact .inl opened
    | rollback =>
      cases Option.some.inj performed
      exact (unchanged rfl rfl).elim
  | fail | submit | exit | reregister => exact (unchanged rfl rfl).elim

end Commits

end Pulse
