import Pulse.System.Invariant

/-! The commit of every transaction, classified. -/
namespace Pulse
open Library.RowLock

@[simp] theorem onJob_same {jobId : Uuid} {f : JobRecord → JobRecord} {record : JobRecord}
    (same : record.job.id = jobId) : onJob jobId f record = f record := by
  simp [onJob, onId, same]

theorem onJob_other {jobId : Uuid} {f : JobRecord → JobRecord} {record : JobRecord}
    (other : record.job.id ≠ jobId) : onJob jobId f record = record := by
  simp [onJob, onId, other]

section Builders
variable {state : System} {sid : Sid} {next : Session}

/-- A transaction which writes only rows it has locked. -/
theorem Commits.ofRows (base : Base state) (leaves : Leaves state (state.sessions sid) next)
    {patch : Patch} (deleted : patch.deletedJobs = []) (inserted : patch.newJobs = [])
    (policies : patch.retryPolicies = id)
    (workers : KeepsWorkers state (state.sessions sid) patch)
    (moves : ∀ record ∈ state.db.jobs, record.job.id ∈ (state.sessions sid).rows →
      Move state (state.sessions sid) record (patch.job record))
    (only : ∀ record ∈ state.db.jobs, record.job.id ∉ (state.sessions sid).rows →
      patch.job record = record) : Commits state sid next patch where
  leaves := leaves
  moves := by
    intro record member _
    by_cases locked : record.job.id ∈ (state.sessions sid).rows
    · exact moves record member locked
    · rw [only record member locked]
      exact .keep locked
  frame := by
    intro record member changed
    by_cases locked : record.job.id ∈ (state.sessions sid).rows
    · exact base.writable locked
    · rcases changed with gone | different
      · simp [deleted] at gone
      · exact absurd (only record member locked) different
  letters := by simp [deleted]
  inserted := by simp [inserted]
  numbered := by simp [inserted]
  policies := by simp [policies]
  workers := workers

/-- A transaction which writes only the row of one job it has locked. -/
theorem Commits.ofJob (base : Base state) (leaves : Leaves state (state.sessions sid) next)
    {jobId : Uuid} {f : JobRecord → JobRecord} (row : (state.sessions sid).rows = [jobId])
    (move : ∀ record ∈ state.db.jobs, record.job.id = jobId →
      (state.sessions sid).Expects record → Move state (state.sessions sid) record (f record)) :
    Commits state sid next { job := onJob jobId f } := by
  refine .ofRows base leaves rfl rfl rfl (.unchanged rfl) ?_ ?_
  · intro record member locked
    have same : record.job.id = jobId := by simpa [row] using locked
    simp only [onJob_same same]
    exact move record member same (base.expect member locked)
  · intro record member other
    rw [row, List.mem_singleton] at other
    exact onJob_other other

/-- A transaction which changes no job. -/
theorem Commits.ofNoJob (base : Base state) (leaves : Leaves state (state.sessions sid) next)
    {patch : Patch} (deleted : patch.deletedJobs = []) (inserted : patch.newJobs = [])
    (policies : patch.retryPolicies = id) (job : patch.job = id)
    (workers : KeepsWorkers state (state.sessions sid) patch)
    (rows : (state.sessions sid).rows = []) : Commits state sid next patch :=
  .ofRows base leaves deleted inserted policies workers
    (fun record _ locked => by simp [rows] at locked) (fun record _ _ => by simp [job])

end Builders

section Sessions
variable {env : Environment} {state : System} {sid : Sid} {next : Session} {locks : List Lock}
  {patch : Patch}

/-- The UPDATE of a claim writes the rows which it has locked, each with its own token. -/
theorem claimWrite_own {workerId : Uuid} {now : Time} {rows : List ClaimedRow} {record : JobRecord}
    (locked : record.job.id ∈ rows.map ClaimedRow.jobId) :
    ∃ row ∈ rows, row.jobId = record.job.id ∧
      claimWrite workerId now rows record = record.claim now workerId row.token := by
  cases found : rows.find? fun row => row.jobId = record.job.id with
  | none =>
    obtain ⟨row, listed, same⟩ := List.mem_map.mp locked
    have missing := List.find?_eq_none.mp found row listed
    simp [same] at missing
  | some row =>
    refine ⟨row, List.mem_of_find?_eq_some found, by simpa using List.find?_some found, ?_⟩
    simp only [claimWrite, found]

theorem claimWrite_other {workerId : Uuid} {now : Time} {rows : List ClaimedRow}
    {record : JobRecord} (other : record.job.id ∉ rows.map ClaimedRow.jobId) :
    claimWrite workerId now rows record = record := by
  have missing : rows.find? (fun row => row.jobId = record.job.id) = none := by
    refine List.find?_eq_none.mpr fun row listed => ?_
    have different : row.jobId ≠ record.job.id :=
      fun same => other (List.mem_map.mpr ⟨row, listed, same⟩)
    simpa using different
  simp [claimWrite, missing]

/-- A tick publishes what it has written to each row. -/
theorem tickWrite_own {writes : List RowWrite} {record : JobRecord}
    (locked : record.job.id ∈ writes.map RowWrite.jobId) :
    ∃ write ∈ writes, write.jobId = record.job.id ∧
      tickWrite writes record = write.change.write record := by
  cases found : writes.find? fun write => write.jobId = record.job.id with
  | none =>
    obtain ⟨write, listed, same⟩ := List.mem_map.mp locked
    have missing := List.find?_eq_none.mp found write listed
    simp [same] at missing
  | some write =>
    refine ⟨write, List.mem_of_find?_eq_some found, by simpa using List.find?_some found, ?_⟩
    simp only [tickWrite, found]

theorem tickWrite_other {writes : List RowWrite} {record : JobRecord}
    (other : record.job.id ∉ writes.map RowWrite.jobId) : tickWrite writes record = record := by
  have missing : writes.find? (fun write => write.jobId = record.job.id) = none := by
    refine List.find?_eq_none.mpr fun write listed => ?_
    have different : write.jobId ≠ record.job.id :=
      fun same => other (List.mem_map.mpr ⟨write, listed, same⟩)
    simpa using different
  simp [tickWrite, missing]

theorem claim_commits (base : Base state) {queueId workerId : Uuid} {now : Time}
    {rows : List ClaimedRow}
    (running : state.sessions sid = .claimWritten queueId workerId now rows) :
    Commits state sid (if rows = [] then .idle else .claimCommitted workerId rows)
      { job := claimWrite workerId now rows } := by
  refine .ofRows base ?_ rfl rfl rfl (.unchanged rfl) ?_ ?_
  · rw [running]
    split
    · exact .done
    · exact .claimed
  · intro record member locked
    have expected := base.expect member locked
    rw [running] at expected locked ⊢
    obtain ⟨queued, queue, attempts⟩ := expected
    obtain ⟨row, listed, same, written⟩ := claimWrite_own locked
    dsimp only
    rw [written]
    exact .claim listed same.symm queued queue (attempts row listed same).symm
  · intro record member other
    rw [running] at other
    exact claimWrite_other other

theorem start_commits (base : Base state) {task : Task} {now : Time}
    (running : state.sessions sid = .starting task) :
    Commits state sid (.handling task (state.draw task.jobId)) {
      job := onJob task.jobId fun record =>
        record.start now (state.draw task.jobId) task.attempt } := by
  have armed := base.armed sid
  rw [running] at armed
  refine .ofJob base (by rw [running]; exact .started) (by rw [running]; rfl) ?_
  intro record member same expected
  rw [running] at expected ⊢
  exact .start same expected armed

theorem finish_commits (base : Base state) {task : Task} {executionId : Uuid} {durationMs : Int}
    {outcome : Outcome} {now : Time} {uniform : ℚ}
    (running : state.sessions sid = .finishing task executionId durationMs outcome) :
    Commits state sid .idle {
      job := onJob task.jobId
        (finishWrite state task executionId durationMs outcome now uniform) } := by
  have armed := base.armed sid
  rw [running] at armed
  refine .ofJob base .done (by rw [running]; rfl) ?_
  intro record member same expected
  rw [running] at expected ⊢
  cases outcome with
  | success => exact .complete same expected armed
  | failure errorType errorMessage =>
    simp only [finishWrite, JobRecord.applyFailure]
    split
    · rename_i spent
      exact .bury same expected armed spent
    · rename_i more
      exact .backoff same expected armed (Nat.lt_of_not_le more)

theorem sweep_commits (base : Base state) {sweep : Sweep}
    (running : state.sessions sid = .reaperSwept sweep ∨
      state.sessions sid = .reaperPruned sweep) :
    Commits state sid .idle {
      job := sweepWrite state sweep
      workers := fun rows => (rows.map (markDead sweep.lost)).filter fun row =>
        row.id ∉ sweep.removed } := by
  have rows : (state.sessions sid).rows = sweep.orphans ++ sweep.unassigned := by
    rcases running with running | running <;> rw [running] <;> rfl
  have swept : (state.sessions sid).sweep? = some sweep := by
    rcases running with running | running <;> rw [running] <;> rfl
  refine .ofRows base .done rfl rfl rfl ?_ ?_ ?_
  · intro row member
    have same : (markDead sweep.lost row).id = row.id := by
      unfold markDead
      split <;> rfl
    by_cases removed : row.id ∈ sweep.removed
    · exact .inr ⟨sweep, swept, removed⟩
    · refine .inl ⟨markDead sweep.lost row, ?_, same⟩
      exact List.mem_filter.mpr ⟨List.mem_map_of_mem member, by simpa [same] using removed⟩
  · intro record member locked
    have expected := base.expect member locked
    show Move state _ record (sweepWrite state sweep record)
    unfold sweepWrite
    split
    · rename_i orphan
      have inFlight : record.job.status.inFlight = true := by
        rcases running with running | running <;> rw [running] at expected <;>
          exact expected orphan
      unfold JobRecord.reap
      split
      · rename_i lost
        dsimp only
        split
        · rename_i spent
          exact .buryLost swept orphan lost spent
        · rename_i more
          exact .requeueLost swept orphan lost (Nat.lt_of_not_le more)
      · rename_i kept
        refine .requeueClaimed swept orphan ?_
        cases status : record.job.status <;> simp_all [JobStatus.inFlight]
    · rename_i other
      have chosen : record.job.id ∈ sweep.unassigned := by
        rw [rows] at locked
        exact (List.mem_append.mp locked).resolve_left other
      rw [if_pos chosen]
      exact .unassign swept chosen other
  · intro record member other
    rw [rows, List.mem_append, not_or] at other
    simp [sweepWrite, other.1, other.2]

theorem numbered_ids (first : Uuid) (jobs : List Job) :
    (numbered first jobs).map Job.id = (List.range jobs.length).map fun index => first + index := by
  apply List.ext_getElem
  · simp [numbered]
  · intro index _ _
    simp [numbered]

theorem numbered_member {first : Uuid} {jobs : List Job} {job : Job}
    (member : job ∈ numbered first jobs) :
    ∃ spawned ∈ jobs, ∃ index < jobs.length, job = { spawned with id := first + index } := by
  obtain ⟨index, within, rfl⟩ := List.mem_mapIdx.mp member
  exact ⟨jobs[index], List.getElem_mem within, index, within, rfl⟩

theorem Job.Fresh.withId {job : Job} (fresh : job.Fresh) (id : Uuid) :
    Job.Fresh { job with id := id } :=
  ⟨fresh.status, fresh.attempts, fresh.lockToken, fresh.workerId, fresh.maxAttempts⟩

theorem nodup_counted (first count : Uuid) :
    ((List.range count).map fun index => first + index).Nodup :=
  List.Nodup.map (fun _ _ same => Nat.add_left_cancel same) List.nodup_range

theorem tick_commits (base : Base state) {current : Tick}
    (running : state.sessions sid = .tick current)
    {scheduledJobs : List ScheduledJob → List ScheduledJob} :
    Commits state sid .idle {
      job := tickWrite current.writes, newJobs := numbered state.nextUuid current.spawned,
      scheduledJobs } := by
  have armed := base.armed sid
  rw [running] at armed
  have rows : (state.sessions sid).rows = current.writes.map RowWrite.jobId := by
    rw [running]
    rfl
  exact {
    leaves := .done
    moves := by
      intro record member _
      dsimp only
      by_cases locked : record.job.id ∈ (state.sessions sid).rows
      · have expected := base.expect member locked
        rw [rows] at locked
        rw [running] at expected ⊢
        obtain ⟨write, listed, same, written⟩ := tickWrite_own locked
        rw [written]
        exact .write listed same.symm (expected write listed same) (armed.1 write listed)
      · rw [tickWrite_other (rows ▸ locked)]
        exact .keep locked
    frame := by
      intro record member changed
      by_cases locked : record.job.id ∈ (state.sessions sid).rows
      · exact base.writable locked
      · rcases changed with gone | different
        · cases gone
        · exact absurd (tickWrite_other (rows ▸ locked)) different
    letters := by simp
    inserted := by
      intro job member
      obtain ⟨spawned, listed, index, within, rfl⟩ := numbered_member member
      have positive := base.positive
      refine ⟨(armed.2 spawned listed).withId _, Nat.le_add_right .., ?_⟩
      simp only [numbered, List.length_mapIdx]
      lia
    numbered := by
      rw [numbered_ids]
      exact nodup_counted ..
    policies := by simp
    workers := .unchanged rfl }

theorem requeue_commits (base : Base state) {jobId : Uuid} {entries : List Uuid} {now : Time}
    (running : state.sessions sid = .superseded jobId entries ∨
      ∃ entryId, entries = [entryId] ∧ state.sessions sid = .replayingJob entryId jobId) :
    Commits state sid .idle {
      job := onJob jobId fun record => (record.consume now entries).reset now } := by
  refine .ofJob base .done ?_ ?_
  · rcases running with running | ⟨_, _, running⟩ <;> rw [running] <;> rfl
  · intro record member same expected
    rcases running with running | ⟨entryId, rfl, running⟩
    · rw [running] at expected ⊢
      obtain ⟨retryable, superseded⟩ := expected
      exact .retry same retryable (fun entry listed => (superseded entry listed).mp)
        fun entry listed => (superseded entry listed).mpr
    · obtain ⟨other, present, named, letter⟩ :=
        base.replays sid entryId jobId (by rw [running]; rfl)
      have identical := unique_record base.distinct present member (named.trans same.symm)
      subst identical
      rw [running] at expected ⊢
      exact .replay same expected letter

/-- A worker's write to its own row keeps its id. -/
theorem WorkerUpdate.write_id (update : WorkerUpdate) (loaded : WorkerStatus) (now : Time)
    (row : Worker) : (update.write loaded now row).id = row.id := by
  have set : ∀ status : WorkerStatus,
      (if loaded = status then row else { row with status }).id = row.id := by
    intro status
    split <;> rfl
  cases update with
  | heartbeat busy =>
    cases busy with
    | none => rfl
    | some busy => exact set _
  | drain | retire => exact set _

theorem WorkerUpdate.onId_id (update : WorkerUpdate) (loaded : WorkerStatus) (now : Time)
    (workerId : Uuid) (row : Worker) :
    (onId Worker.id workerId (update.write loaded now) row).id = row.id := by
  unfold onId
  split
  · exact update.write_id loaded now row
  · rfl

/-- Whatever a session publishes, its commit is classified. -/
theorem Session.effect_commits (base : Base state) {input : Input}
    (taken : (state.sessions sid).effect env state sid input =
      some (.commit next locks patch)) : Commits state sid next patch := by
  have closes := Session.effect_closes taken
  generalize running : state.sessions sid = session at closes
  cases closes with
  | claim => exact claim_commits base running
  | start => exact start_commits base running
  | finish => exact finish_commits base running
  | worker =>
    refine .ofNoJob base .done rfl rfl rfl rfl ?_ (by rw [running]; rfl)
    intro row member
    exact .inl ⟨_, List.mem_map_of_mem member, WorkerUpdate.onId_id ..⟩
  | sweep swept => exact sweep_commits base (by rwa [running])
  | tick => exact tick_commits base running
  | cancel =>
    refine .ofJob base .done (by rw [running]; rfl) ?_
    intro record member same expected
    rw [running] at expected ⊢
    exact .cancel same expected
  | requeue requeued => exact requeue_commits base (by rwa [running])

/-! Requests of one transaction. -/

theorem insertJobs_commits (idle : state.sessions sid = .idle)
    {jobs : List Job}
    (inserted : ∀ job ∈ jobs, job.Fresh ∧ state.nextUuid ≤ job.id ∧
      job.id < 2 * state.nextUuid + jobs.length)
    (numbered : (jobs.map Job.id).Nodup) : Commits state sid .idle { newJobs := jobs } where
  leaves := .done
  moves := fun record _ _ => .keep (by simp [idle, Session.rows])
  frame := by simp
  letters := by simp
  inserted := inserted
  numbered := numbered
  policies := by simp
  workers := .unchanged rfl

theorem initialStatus_fresh (now : Time) (runAt : Option Time) (hasDeps : Bool) :
    (initialStatusAndRunAt now runAt hasDeps).1 = .queued ∨
      (initialStatusAndRunAt now runAt hasDeps).1 = .scheduled := by
  unfold initialStatusAndRunAt
  dsimp only
  split
  · exact .inr rfl
  · split
    · exact .inl rfl
    · exact .inr rfl

theorem defaultMaxAttempts_pos (policies : ∀ policy ∈ state.db.retryPolicies, policy.usable)
    (queue : Queue) : 0 < defaultMaxAttempts state.db queue := by
  unfold defaultMaxAttempts
  split
  · rename_i policy found
    obtain ⟨id, _, present⟩ := Option.bind_eq_some_iff.mp found
    exact policies policy (List.mem_of_find?_eq_some present)
  · decide

theorem createJob_fresh (base : Base state) {now : Time} {body : JobCreate} {job : Job}
    (created : createJob state.db now state.nextUuid body = .ok (some job)) :
    job.Fresh ∧ job.id = state.nextUuid := by
  obtain ⟨queue, _, valid, _, _, rfl⟩ := createJob_row created
  refine ⟨⟨initialStatus_fresh .., rfl, rfl, rfl, ?_⟩, rfl⟩
  simp only [JobCreate.row]
  cases limit : body.maxAttempts with
  | none => exact defaultMaxAttempts_pos base.policies queue
  | some attempts =>
    simp [JobCreate.valid, limit] at valid
    simp only [Option.getD_some]
    omega

theorem createBatch_fresh (base : Base state) {now : Time} {first batchId : Uuid}
    {body : JobBatchCreate} {jobs : List Job}
    (created : createBatch state.db now first batchId body = .ok jobs) :
    (∀ job ∈ jobs, job.Fresh) ∧
      jobs.map Job.id = (List.range jobs.length).map fun index => first + index := by
  obtain ⟨queue, _, rfl⟩ := createBatch_rows created
  refine ⟨?_, batch_rows_ids body queue⟩
  intro job member
  obtain ⟨index, within, rfl⟩ := List.mem_mapIdx.mp member
  exact ⟨initialStatus_fresh .., rfl, rfl, rfl, defaultMaxAttempts_pos base.policies queue⟩

theorem deleteSchedule_commits (idle : state.sessions sid = .idle) {id : Uuid}
    (taken : deleteSchedule state.db id = .commit next locks patch)
    (free : locks.any (state.waits sid) = false) : Commits state sid next patch := by
  cases taken
  exact {
    leaves := .done
    moves := fun record _ _ => by rw [idle]; exact .detach
    frame := by
      intro record member changed
      have refers : record.job.scheduledJobId = some id := by
        by_contra other
        simp [JobRecord.detach, other] at changed
      refine Base.unblocked free (.job record.job.id, .noKeyUpdate) ?_
      refine List.mem_cons_of_mem _ (List.mem_map.mpr ⟨record, ?_, rfl⟩)
      exact List.mem_filter.mpr ⟨member, by simpa using refers⟩
    letters := by simp
    inserted := by simp
    numbered := by simp
    policies := by simp
    workers := .unchanged rfl }

theorem waits_weaker {lock : Key} (free : state.waits sid (lock, .update) = false) :
    state.waits sid (lock, .noKeyUpdate) = false := by
  apply not_blocked_iff.mpr
  intro grant member same different
  have none := not_blocked_iff.mp free grant member same different
  cases mode : grant.mode <;> simp_all [Mode.conflicts]

theorem deleteQueue_commits (base : Base state) (idle : state.sessions sid = .idle) {id : Uuid}
    (taken : deleteQueue state.db id = .commit next locks patch)
    (free : locks.any (state.waits sid) = false) : Commits state sid next patch := by
  cases taken
  replace free := Base.unblocked free
  have doomed : ∀ record ∈ state.db.jobs,
      record.job.id ∈ (state.db.jobs.filter fun record => record.job.queueId = id).map
        (fun record => record.job.id) →
      record ∈ state.db.jobs.filter fun record => record.job.queueId = id := by
    intro record member listed
    obtain ⟨other, present, same⟩ := List.mem_map.mp listed
    rwa [unique_record base.distinct member (List.mem_of_mem_filter present) same.symm]
  exact {
    leaves := .done
    moves := fun record _ _ => .keep (by simp [idle, Session.rows])
    frame := by
      intro record member changed
      have listed := doomed record member (by simpa using changed)
      refine waits_weaker (free (.job record.job.id, .update) ?_)
      refine List.mem_append_left _ (List.mem_cons_of_mem _ ?_)
      exact List.mem_map.mpr ⟨record, listed, rfl⟩
    letters := by
      intro record member gone entry present
      refine waits_weaker (free (.deadLetter entry.id, .update) ?_)
      refine List.mem_append_right _ (List.mem_flatMap.mpr ⟨record, doomed record member gone, ?_⟩)
      exact List.mem_map.mpr ⟨entry, present, rfl⟩
    inserted := by simp
    numbered := by simp
    policies := by simp
    workers := .unchanged rfl }

theorem Answers.commits (base : Base state) (idle : state.sessions sid = .idle)
    {now : Time} {call : ApiCall} (answers : Answers env state now call locks patch)
    (free : locks.any (state.waits sid) = false) : Commits state sid .idle patch := by
  have positive := base.positive
  have rows : (state.sessions sid).rows = [] := by simp [idle, Session.rows]
  have plain : ∀ {patch : Patch}, patch.deletedJobs = [] → patch.newJobs = [] →
      patch.retryPolicies = id → patch.job = id →
      KeepsWorkers state (state.sessions sid) patch → Commits state sid .idle patch :=
    fun deleted inserted policies job workers =>
      .ofNoJob base .done deleted inserted policies job workers rows
  have policies : ∀ {change : List RetryPolicy → List RetryPolicy}
      {queues : List Queue → List Queue}, ((∀ policy ∈ state.db.retryPolicies, policy.usable) →
        ∀ policy ∈ change state.db.retryPolicies, policy.usable) →
      Commits state sid .idle { retryPolicies := change, queues } := fun usable => {
    leaves := .done
    moves := fun record _ _ => .keep (by simp [rows])
    frame := by simp
    letters := by simp
    inserted := by simp
    numbered := by simp
    policies := usable
    workers := .unchanged rfl }
  cases answers with
  | registerWorker =>
    exact plain rfl rfl rfl rfl fun row member => .inl ⟨row, List.mem_append_left _ member, rfl⟩
  | @createJob _ created made =>
    cases created with
    | none => exact insertJobs_commits idle (by simp) (by simp)
    | some job =>
      obtain ⟨fresh, id⟩ := createJob_fresh base made
      refine insertJobs_commits idle ?_ (by simp)
      intro other member
      cases List.mem_singleton.mp member
      refine ⟨fresh, by rw [id], ?_⟩
      rw [id]
      show state.nextUuid < 2 * state.nextUuid + 1
      lia
  | @createBatch _ jobs made =>
    obtain ⟨fresh, ids⟩ := createBatch_fresh base made
    refine insertJobs_commits idle ?_ (by rw [ids]; exact nodup_counted ..)
    intro job member
    have listed : job.id ∈ jobs.map Job.id := List.mem_map.mpr ⟨job, member, rfl⟩
    rw [ids] at listed
    obtain ⟨index, within, same⟩ := List.mem_map.mp listed
    replace within := List.mem_range.mp within
    refine ⟨fresh job member, ?_, ?_⟩
    · rw [← same]
      lia
    · rw [← same]
      lia
  | createSchedule | updateSchedule | createQueue | updateQueue | setPaused =>
    exact plain rfl rfl rfl rfl (.unchanged rfl)
  | deleteSchedule made => exact deleteSchedule_commits idle made free
  | deleteQueue made => exact deleteQueue_commits base idle made free
  | createRetryPolicy made =>
    refine policies fun before other member => ?_
    rcases List.mem_append.mp member with old | new
    · exact before other old
    · rw [List.mem_singleton.mp new]
      exact createRetryPolicy_usable made
  | updateRetryPolicy made =>
    refine policies fun before other member => ?_
    obtain ⟨policy, present, rfl⟩ := List.mem_map.mp member
    unfold onId
    split
    · exact updateRetryPolicy_usable made (before policy present)
    · exact before policy present
  | deleteRetryPolicy =>
    exact policies fun before policy member => before policy (List.mem_of_mem_filter member)

theorem Request.effect_commits (base : Base state) (idle : state.sessions sid = .idle)
    {request : Request} (taken : request.effect env state sid = some (.commit next locks patch))
    (free : locks.any (state.waits sid) = false) : Commits state sid next patch := by
  obtain ⟨now, call, rfl, rfl, answers⟩ := Request.effect_closes taken
  exact answers.commits base idle free

end Sessions
end Pulse
