import Pulse.System.Records

/-! What each statement inside a transaction does, said once: the stage it leads to,
the locks it takes and what it read. -/
namespace Pulse
open Library.RowLock

/-- The statements which keep their transaction open. -/
inductive Advance (env : Environment) (state : System) : Session → Session → List Lock → Prop where
  | lockClaims {queueId workerId limit now} (acting : state.acting workerId) :
      Advance env state .idle (.claimLocked queueId workerId limit now)
        [(.queueClaims queueId, .update)]
  | claim {queueId workerId limit now rows}
      (selected : ∀ row ∈ rows, ∃ record ∈ state.db.jobs, record.job.id = row.jobId ∧
        record.job.status = .queued ∧ record.job.queueId = queueId ∧
        record.job.attempts = row.attempts)
      (drawn : ∀ row ∈ rows, row.token = state.draw row.jobId)
      (distinct : (rows.map ClaimedRow.jobId).Nodup)
      (within : rows.length ≤ claimLimit limit (state.db.freeSlots queueId))
      (known : rows ≠ [] → (state.db.findWorker workerId).isSome = true) :
      Advance env state (.claimLocked queueId workerId limit now)
        (.claimWritten queueId workerId now rows)
        (if rows = [] then [] else
          (.worker workerId, .keyShare) :: rows.map fun row => (.job row.jobId, .update))
  | select {workerId rows} :
      Advance env state (.claimCommitted workerId rows)
        (handingOver workerId (claimedTasks env.handover state.db workerId rows)) []
  | passFirst {task record} (member : record ∈ state.db.jobs)
      (same : record.job.id = task.jobId) (token : record.job.lockToken = task.token) :
      Advance env state (.execute task) (.starting task) [(.job task.jobId, .update)]
  | handled {task executionId durationMs outcome} :
      Advance env state (.handling task executionId)
        (.returned task executionId durationMs outcome) []
  | passSecond {task executionId durationMs outcome record} (member : record ∈ state.db.jobs)
      (same : record.job.id = task.jobId) (token : record.job.lockToken = task.token) :
      Advance env state (.returned task executionId durationMs outcome)
        (.finishing task executionId durationMs outcome) [(.job task.jobId, .update)]
  | loadWorker {workerId row update} (acting : state.acting workerId)
      (found : state.db.findWorker workerId = some row) :
      Advance env state .idle (.workerLoaded workerId row.status update) []
  | tryReaper : Advance env state .idle .reaperLocked [(.reaperLock, .update)]
  | readStale {now} :
      Advance env state .reaperLocked (.reaperStale now ((state.db.workers.filter
        (Worker.stale (now - env.settings.visibilityTimeoutSec))).map Worker.id)) []
  | readSilent {now stale} :
      Advance env state (.reaperStale now stale)
        (.reaperRead now (stale ++ (state.db.workers.filter
          (Worker.neverHeartbeat (now - env.settings.visibilityTimeoutSec))).map Worker.id)) []
  | markDead {now lost} :
      Advance env state (.reaperRead now lost) (.reaperMarked now lost)
        (lost.map fun id => (.worker id, .noKeyUpdate))
  | sweep {now lost orphans}
      (orphan : ∀ id ∈ orphans, ∃ record ∈ state.db.jobs, record.job.id = id ∧
        record.job.status.inFlight = true ∧
        record.job.workerId.any (deadInView state.db lost) = true) :
      Advance env state (.reaperMarked now lost) (.reaperSwept { now, lost, orphans })
        (orphans.map fun id => (.job id, .update))
  | prune {sweep now removed unassigned}
      (chosen : removed = prunedWorkers env.settings state.db sweep.lost now)
      (referring : ∀ id, id ∈ unassigned ↔ ∃ record ∈ state.db.jobs, record.job.id = id ∧
        record.job.workerId.any (· ∈ removed) = true ∧ id ∉ sweep.orphans) :
      Advance env state (.reaperSwept sweep) (.reaperPruned { sweep with removed, unassigned })
        (removed.map (fun id => (.worker id, .update)) ++
          unassigned.map fun id => (.job id, .noKeyUpdate))
  | tryTick {now} : Advance env state .idle (.tick { now }) [(.schedulerLock, .update)]
  | tickRead {current next locks} (writes : next.writes = current.writes)
      (targets : ∀ id ∈ (Session.tick next).targetIds, id ∈ (Session.tick current).targetIds ∨
        ∃ record ∈ state.db.jobs, record.job.id = id ∧ record.job.status.parked = true)
      (spawned : (∀ policy ∈ state.db.retryPolicies, policy.usable) →
        ∀ job ∈ next.spawned, job ∈ current.spawned ∨ job.Fresh) :
      Advance env state (.tick current) (.tick next) locks
  | tickWrite {current target record} (chosen : target ∈ current.targets)
      (member : record ∈ state.db.jobs) (same : record.job.id = target.jobId) :
      Advance env state (.tick current)
        (.tick { current with
          targets := current.targets.erase target
          writes := ⟨target.jobId, target.change, record.job.status⟩ :: current.writes })
        [(.job target.jobId, .noKeyUpdate)]
  | lockCancel {jobId record} (member : record ∈ state.db.jobs) (same : record.job.id = jobId)
      (allowed : record.job.status.cancellable = true) :
      Advance env state .idle (.cancelling jobId) [(.job jobId, .update)]
  | lockRetry {jobId record} (member : record ∈ state.db.jobs) (same : record.job.id = jobId)
      (allowed : record.job.status.retryable = true) :
      Advance env state .idle (.retrying jobId) [(.job jobId, .update)]
  | supersede {jobId record} (member : record ∈ state.db.jobs) (same : record.job.id = jobId) :
      Advance env state (.retrying jobId)
        (.superseded jobId (record.openLetters.map DeadLetterEntry.id))
        ((record.openLetters.map DeadLetterEntry.id).map fun id => (.deadLetter id, .noKeyUpdate))
  | lockLetter {entryId record entry} (member : record ∈ state.db.jobs)
      (listed : entry ∈ record.deadLetters) (same : entry.id = entryId)
      (opened : entry.replayedAt = none) :
      Advance env state .idle (.replaying entryId record.job.id) [(.deadLetter entryId, .update)]
  | lockReplayed {entryId jobId record} (member : record ∈ state.db.jobs)
      (same : record.job.id = jobId) (dead : record.job.status = .dead) :
      Advance env state (.replaying entryId jobId) (.replayingJob entryId jobId)
        [(.job jobId, .update)]

/-- The statements of a tick which keep its transaction open. -/
inductive Ticks (env : Environment) (state : System) (current : Tick) :
    Tick → List Lock → Prop where
  | locked {limited} (idle : current.targets = []) (stage : current.stage = .locked) :
      Ticks env state current
        { current with stage := .promoting limited, rateLimited := limited } []
  | selectRateLimited {queueId rest} {picked : List Uuid} (idle : current.targets = [])
      (stage : current.stage = .promoting (queueId :: rest))
      (due : ∀ id ∈ picked, ∃ job ∈ (current.view state.db).map JobRecord.job,
        job.id = id ∧ job.due current.now = true) :
      Ticks env state current { current with
        stage := .promoting rest
        targets := picked.map fun jobId => { jobId, change := .promote, recheck := false } } []
  | selectUnlimited {next locks} (idle : current.targets = [])
      (stage : current.stage = .promoting [])
      (made : Pulse.selectUnlimited state current = .hold (.tick next) locks) :
      Ticks env state current next locks
  | promoteCronJobs {now next locks} (idle : current.targets = [])
      (stage : current.stage = .spawning)
      (made : Pulse.promoteCronJobs env.getNext state current now = .hold (.tick next) locks) :
      Ticks env state current next locks
  | selectPending {next locks} (idle : current.targets = []) (stage : current.stage = .resolving)
      (made : Pulse.selectPending state current = .hold (.tick next) locks) :
      Ticks env state current next locks
  | decideDependents {pending now next locks} (idle : current.targets = [])
      (stage : current.stage = .deciding pending)
      (made : Pulse.decideDependents state current pending now = .hold (.tick next) locks) :
      Ticks env state current next locks
  | skip {target} (chosen : target ∈ current.targets) :
      Ticks env state current { current with targets := current.targets.erase target } []
  | write {target record} (chosen : target ∈ current.targets)
      (member : record ∈ state.db.jobs) (same : record.job.id = target.jobId)
      (rechecked : target.recheck = true → record.job.due current.now = true) :
      Ticks env state current { current with
        targets := current.targets.erase target
        writes := ⟨target.jobId, target.change, record.job.status⟩ :: current.writes }
        [(.job target.jobId, .noKeyUpdate)]

/-- The statements which commit, each with what it publishes. -/
inductive Closes (env : Environment) (state : System) : Session → Session → Patch → Prop where
  | claim {queueId workerId now rows} :
      Closes env state (.claimWritten queueId workerId now rows)
        (if rows = [] then .idle else .claimCommitted workerId rows)
        { job := claimWrite workerId now rows }
  | start {task now} :
      Closes env state (.starting task) (.handling task (state.draw task.jobId)) {
        job := onJob task.jobId fun record =>
          record.start now (state.draw task.jobId) task.attempt }
  | finish {task executionId durationMs outcome now uniform} :
      Closes env state (.finishing task executionId durationMs outcome) .idle {
        job := onJob task.jobId
          (finishWrite state task executionId durationMs outcome now uniform) }
  | worker {workerId loaded update now} :
      Closes env state (.workerLoaded workerId loaded update) .idle {
        workers := fun rows => rows.map (onId Worker.id workerId (update.write loaded now)) }
  | sweep {session sweep} (running : session = .reaperSwept sweep ∨ session = .reaperPruned sweep) :
      Closes env state session .idle {
        job := sweepWrite state sweep
        workers := fun rows => (rows.map (markDead sweep.lost)).filter fun row =>
          row.id ∉ sweep.removed }
  | tick {current} : Closes env state (.tick current) .idle {
      job := tickWrite current.writes
      newJobs := numbered state.nextUuid current.spawned
      scheduledJobs := fun rows => rows.map fun row =>
        current.schedules.foldl (fun row change => change.write row) row }
  | cancel {jobId now} : Closes env state (.cancelling jobId) .idle {
      job := onJob jobId fun record => record.cancel now }
  | requeue {session jobId entries now} (running : session = .superseded jobId entries ∨
      ∃ entryId, entries = [entryId] ∧ session = .replayingJob entryId jobId) :
      Closes env state session .idle {
        job := onJob jobId fun record => (record.consume now entries).reset now }

/-- The requests of one transaction which commit, each with what it checked, locks and
publishes. -/
inductive Answers (env : Environment) (state : System) (now : Time) :
    ApiCall → List Lock → Patch → Prop where
  | registerWorker : Answers env state now .registerWorker [] {
      workers := fun rows => rows ++ [{
        id := state.nextUuid, status := .idle, registeredAt := now,
        lastHeartbeatAt := some now }] }
  | createJob {body created}
      (made : Pulse.createJob state.db now state.nextUuid body = .ok created) :
      Answers env state now (.createJob body)
        (created.toList.map fun job => (.queue job.queueId, .keyShare))
        { newJobs := created.toList }
  | createBatch {body jobs}
      (made : Pulse.createBatch state.db now (state.nextUuid + 1) state.nextUuid body = .ok jobs) :
      Answers env state now (.createBatch body)
        (jobs.map fun job => (.queue job.queueId, .keyShare)) { newJobs := jobs }
  | createSchedule {body sched}
      (made : Pulse.createSchedule env.getNext state.db now state.nextUuid body = .ok sched) :
      Answers env state now (.createSchedule body) []
        { scheduledJobs := fun rows => rows ++ [sched] }
  | updateSchedule {id isActive f}
      (made : Pulse.updateSchedule env.getNext state.db now id isActive = .ok f) :
      Answers env state now (.updateSchedule id isActive) [(.scheduledJob id, .noKeyUpdate)]
        { scheduledJobs := fun rows => rows.map (onId ScheduledJob.id id f) }
  | deleteSchedule {id locks patch}
      (made : Pulse.deleteSchedule state.db id = .commit .idle locks patch) :
      Answers env state now (.deleteSchedule id) locks patch
  | createQueue {body queue}
      (made : Pulse.createQueue state.db state.nextUuid body = .ok queue) :
      Answers env state now (.createQueue body) [] { queues := fun rows => rows ++ [queue] }
  | updateQueue {id body f} (made : Pulse.updateQueue state.db id body = .ok f) :
      Answers env state now (.updateQueue id body) []
        { queues := fun rows => rows.map (onId Queue.id id f) }
  | setPaused {id isPaused f} (made : Pulse.setPaused state.db id isPaused = .ok f) :
      Answers env state now (.setPaused id isPaused) []
        { queues := fun rows => rows.map (onId Queue.id id f) }
  | deleteQueue {id locks patch}
      (made : Pulse.deleteQueue state.db id = .commit .idle locks patch) :
      Answers env state now (.deleteQueue id) locks patch
  | createRetryPolicy {body policy}
      (made : Pulse.createRetryPolicy state.nextUuid body = .ok policy) :
      Answers env state now (.createRetryPolicy body) []
        { retryPolicies := fun rows => rows ++ [policy] }
  | updateRetryPolicy {id body f} (made : Pulse.updateRetryPolicy body = .ok f) :
      Answers env state now (.updateRetryPolicy id body) []
        { retryPolicies := fun rows => rows.map (onId RetryPolicy.id id f) }
  | deleteRetryPolicy {id} : Answers env state now (.deleteRetryPolicy id) [] {
      retryPolicies := fun rows => rows.filter fun row => row.id ≠ id
      queues := fun rows => rows.map fun row =>
        if row.retryPolicyId = some id then { row with retryPolicyId := none } else row }

section Classification
variable {env : Environment} {state : System} {sid : Sid} {next : Session} {locks : List Lock}

theorem claimStatement_advance {queueId workerId : Uuid} {limit : Nat} {now : Time} {input : Input}
    (distinct : (state.db.jobs.map fun record => record.job.id).Nodup)
    (taken : claimStatement state sid queueId workerId limit now input =
      some (.hold next locks)) :
    Advance env state (.claimLocked queueId workerId limit now) next locks := by
  unfold claimStatement at taken
  dsimp only at taken
  split at taken
  · rename_i takes
    obtain ⟨_, size, _, _⟩ := takes
    generalize eligibleIs : (state.db.claimable queueId now).filter _ = eligible at taken size
    have chosen : ∀ job ∈ eligible, ∃ record ∈ state.db.jobs, record.job = job ∧
        job.queueId = queueId ∧ job.status = .queued := by
      intro job member
      rw [← eligibleIs] at member
      simp only [Db.claimable, List.mem_filter, List.mem_map, Bool.and_eq_true,
        decide_eq_true_eq] at member
      obtain ⟨⟨⟨record, present, same⟩, ⟨queue, status⟩, _⟩, _⟩ := member
      exact ⟨record, present, same, queue, status⟩
    have unique : (eligible.map Job.id).Nodup := by
      rw [← eligibleIs, Db.claimable]
      have jobs : ((state.db.jobs.map JobRecord.job).map Job.id).Nodup := by
        simpa [Function.comp_def] using distinct
      exact (jobs.sublist ((List.filter_sublist.trans List.filter_sublist).map _))
    generalize rowsAre : (eligible.filter fun job => job.id ∈ input.picked).map _ = rows at taken
    have selected : ∀ row ∈ rows, ∃ record ∈ state.db.jobs, record.job.id = row.jobId ∧
        record.job.status = .queued ∧ record.job.queueId = queueId ∧
        record.job.attempts = row.attempts := by
      intro row member
      rw [← rowsAre] at member
      obtain ⟨job, present, rfl⟩ := List.mem_map.mp member
      obtain ⟨record, there, rfl, queue, status⟩ := chosen job (List.mem_of_mem_filter present)
      exact ⟨record, there, rfl, status, queue, rfl⟩
    have drawn : ∀ row ∈ rows, row.token = state.draw row.jobId := by
      intro row member
      rw [← rowsAre] at member
      obtain ⟨job, _, rfl⟩ := List.mem_map.mp member
      rfl
    have rowIds : rows.map ClaimedRow.jobId =
        (eligible.filter fun job => job.id ∈ input.picked).map Job.id := by
      simp [← rowsAre, Function.comp_def]
    have nodup : (rows.map ClaimedRow.jobId).Nodup := by
      rw [rowIds]
      exact unique.sublist (List.filter_sublist.map _)
    have within : rows.length ≤ claimLimit limit (state.db.freeSlots queueId) := by
      have covered : rows.map ClaimedRow.jobId ⊆ input.picked := by
        intro id member
        rw [rowIds] at member
        obtain ⟨job, present, rfl⟩ := List.mem_map.mp member
        simpa using (List.mem_filter.mp present).2
      have bound := List.Nodup.length_le_of_subset nodup covered
      rw [List.length_map] at bound
      omega
    split at taken
    · rename_i none
      cases Option.some.inj taken
      have advance : Advance env state (.claimLocked queueId workerId limit now)
          (.claimWritten queueId workerId now rows) _ :=
        .claim selected drawn nodup within (by simp [none])
      simpa only [none, if_true] using advance
    · rename_i some
      split at taken
      · cases taken
      · rename_i known
        cases Option.some.inj taken
        have advance : Advance env state (.claimLocked queueId workerId limit now)
            (.claimWritten queueId workerId now rows) _ :=
          .claim selected drawn nodup within
            fun _ => by simpa [Option.isSome_iff_ne_none] using known
        simpa only [some, if_false] using advance
  · cases taken

theorem loadForTransition_some {db : Db} {jobId : Uuid} {token : Option Uuid} {record : JobRecord}
    (found : loadForTransition db jobId token = some record) :
    record ∈ db.jobs ∧ record.job.id = jobId ∧ record.job.lockToken = token := by
  refine ⟨List.mem_of_find?_eq_some found, ?_⟩
  simpa using List.find?_some found

theorem guarded_hold {task : Task} {wanted : Session}
    (taken : guarded state task wanted = .hold next locks) :
    next = wanted ∧ locks = [(.job task.jobId, .update)] ∧ ∃ record ∈ state.db.jobs,
      record.job.id = task.jobId ∧ record.job.lockToken = task.token := by
  unfold guarded at taken
  split at taken
  · rename_i record found
    cases taken
    obtain ⟨member, same, token⟩ := loadForTransition_some found
    exact ⟨rfl, rfl, record, member, same, token⟩
  · cases taken

theorem sweepStatement_advance {now : Time} {lost : List Uuid}
    (taken : sweepStatement state sid now lost = .hold next locks) :
    Advance env state (.reaperMarked now lost) next locks := by
  cases taken
  refine .sweep ?_
  intro id member
  obtain ⟨record, present, rfl⟩ := List.mem_map.mp member
  obtain ⟨there, matching⟩ := List.mem_filter.mp present
  simp only [Bool.and_eq_true] at matching
  exact ⟨record, there, rfl, matching.1.1, matching.1.2⟩

theorem pruneStatement_advance {sweep : Sweep} {now : Time}
    (taken : pruneStatement env.settings state sweep now = .hold next locks) :
    Advance env state (.reaperSwept sweep) next locks := by
  cases taken
  refine .prune rfl ?_
  intro id
  simp only [List.mem_map, List.mem_filter, Bool.and_eq_true, decide_eq_true_eq]
  constructor
  · rintro ⟨record, ⟨there, matching, other⟩, rfl⟩
    exact ⟨record, there, rfl, matching, other⟩
  · rintro ⟨record, there, rfl, matching, other⟩
    exact ⟨record, ⟨there, matching, other⟩, rfl⟩

/-- A tick sees a job as waiting only where it is so in the committed database. -/
theorem tickWrite_waiting {writes : List RowWrite} {record : JobRecord}
    (waiting : (tickWrite writes record).job.status = .scheduled ∨
      (tickWrite writes record).job.status = .retrying) :
    record.job.status.parked = true := by
  unfold tickWrite at waiting
  split at waiting
  · rename_i write _
    cases change : write.change <;>
      simp [change, Change.write, JobRecord.promote, JobRecord.release, JobRecord.cancel]
        at waiting
  · rcases waiting with status | status <;> simp [status, JobStatus.parked]

/-- A job which its tick sees in a status that no tick writes is so in the database. -/
theorem view_unwritten {current : Tick} {record : JobRecord} {status : JobStatus}
    (seen : (tickWrite current.writes record).job.status = status)
    (unwritten : status ≠ .queued ∧ status ≠ .cancelled) :
    tickWrite current.writes record = record ∧ record.job.status = status := by
  unfold tickWrite at seen ⊢
  split at seen
  · rename_i write _
    cases change : write.change <;> simp only [change, Change.write_status, Change.status] at seen
    · exact absurd seen.symm unwritten.1
    · exact absurd seen.symm unwritten.1
    · exact absurd seen.symm unwritten.2
  · exact ⟨rfl, seen⟩

@[simp] theorem tickWrite_id (writes : List RowWrite) (record : JobRecord) :
    (tickWrite writes record).job.id = record.job.id := by
  unfold tickWrite
  split
  · exact congrArg Prod.fst (record.write_identity _)
  · rfl

theorem due_waiting {now : Time} {job : Job} (due : job.due now = true) :
    job.status = .scheduled ∨ job.status = .retrying := by
  simp only [Job.due, Job.dueFilter, Bool.and_eq_true, Bool.or_eq_true, decide_eq_true_eq] at due
  rcases due.2 with ⟨scheduled, _⟩ | retrying
  · exact .inl scheduled
  · exact .inr retrying

/-- What a tick selects from its own view is parked in the database. -/
theorem view_parked {current : Tick} {job : Job}
    (member : job ∈ (current.view state.db).map JobRecord.job)
    (waiting : job.status = .scheduled ∨ job.status = .retrying) :
    ∃ record ∈ state.db.jobs, record.job.id = job.id ∧ record.job.status.parked = true := by
  obtain ⟨seen, present, rfl⟩ := List.mem_map.mp member
  obtain ⟨record, there, rfl⟩ := List.mem_map.mp present
  exact ⟨record, there, (tickWrite_id _ _).symm, tickWrite_waiting waiting⟩

theorem spawnedJob_fresh {queue : Queue} {sched : ScheduledJob}
    (policies : ∀ policy ∈ state.db.retryPolicies, policy.usable) :
    (spawnedJob state.db queue sched).Fresh where
  status := .inl rfl
  attempts := rfl
  lockToken := rfl
  workerId := rfl
  maxAttempts := by
    simp only [spawnedJob]
    split
    · rename_i policy found
      obtain ⟨id, _, present⟩ := Option.bind_eq_some_iff.mp found
      exact policies policy (List.mem_of_find?_eq_some present)
    · decide

theorem visitTarget_ticks {current : Tick} {jobId : Uuid}
    (taken : visitTarget state sid current jobId = some (.hold next locks)) :
    ∃ tick, next = .tick tick ∧ Ticks env state current tick locks := by
  unfold visitTarget at taken
  split at taken
  · cases taken
  · rename_i target found
    have chosen := List.mem_of_find?_eq_some found
    have same : target.jobId = jobId := by simpa using List.find?_some found
    dsimp only at taken
    split at taken
    · cases Option.some.inj taken
      exact ⟨_, rfl, .skip chosen⟩
    · cases Option.some.inj taken
    · rename_i record present
      obtain ⟨member, id⟩ := Db.findJob_some present
      split at taken
      · cases taken
      · split at taken
        · cases Option.some.inj taken
          exact ⟨_, rfl, .skip chosen⟩
        · rename_i rechecked
          cases Option.some.inj taken
          subst same
          exact ⟨_, rfl, .write chosen member id (by simpa using rechecked)⟩

/-- A tick inserts what it spawned before, or spawns under the locks it takes. -/
theorem Ticks.spawned {current tick : Tick} (ticks : Ticks env state current tick locks) :
    tick.spawned = current.spawned ∨
      ∃ now, Pulse.promoteCronJobs env.getNext state current now = .hold (.tick tick) locks := by
  cases ticks with
  | promoteCronJobs _ _ made => exact .inr ⟨_, made⟩
  | selectUnlimited _ _ made | selectPending _ _ made | decideDependents _ _ made =>
    cases made
    exact .inl rfl
  | _ => exact .inl rfl

/-- The next statement of a tick, where it keeps the transaction open. -/
theorem tickEffect_ticks {current : Tick} {input : Input}
    (taken : tickEffect env state sid current input = some (.hold next locks)) :
    ∃ tick, next = .tick tick ∧ Ticks env state current tick locks := by
  unfold tickEffect at taken
  split at taken
  · exact visitTarget_ticks taken
  · rename_i empty
    replace empty := not_not.mp empty
    cases stage : current.stage with
    | locked =>
      simp only [stage, Option.some.injEq] at taken
      cases taken
      exact ⟨_, rfl, .locked empty stage⟩
    | promoting queues =>
      cases queues with
      | nil =>
        simp only [stage, Option.some.injEq] at taken
        cases taken
        exact ⟨_, rfl, .selectUnlimited empty stage rfl⟩
      | cons queueId rest =>
        simp only [stage, selectRateLimited] at taken
        split at taken
        · rename_i takes
          cases Option.some.inj taken
          refine ⟨_, rfl, .selectRateLimited empty stage ?_⟩
          intro id member
          obtain ⟨job, listed, same⟩ := takes.2.2.1 id member
          obtain ⟨present, matching⟩ := List.mem_filter.mp listed
          simp only [Bool.and_eq_true] at matching
          exact ⟨job, present, same, matching.2⟩
        · cases taken
    | spawning =>
      simp only [stage, Option.some.injEq] at taken
      cases taken
      exact ⟨_, rfl, .promoteCronJobs empty stage rfl⟩
    | resolving =>
      simp only [stage, Option.some.injEq] at taken
      cases taken
      exact ⟨_, rfl, .selectPending empty stage rfl⟩
    | deciding pending =>
      simp only [stage, Option.some.injEq] at taken
      cases taken
      exact ⟨_, rfl, .decideDependents empty stage rfl⟩
    | committing =>
      simp only [stage, Option.some.injEq] at taken
      cases taken

/-- What a tick spawns comes from its due templates, which it locks with their queues. -/
theorem promoteCronJobs_spawned {current tick : Tick} {now : Time}
    (made : promoteCronJobs env.getNext state current now = .hold (.tick tick) locks) :
    ∀ job ∈ tick.spawned, ∃ sched ∈ state.db.scheduledJobs, ∃ queue,
      state.db.findQueue sched.queueId = some queue ∧ job = spawnedJob state.db queue sched ∧
        (.scheduledJob sched.id, .noKeyUpdate) ∈ locks ∧ (.queue queue.id, .keyShare) ∈ locks := by
  cases made
  intro job member
  obtain ⟨pair, present, spawned⟩ := List.mem_filterMap.mp member
  obtain ⟨due, listed, rfl⟩ := List.mem_map.mp present
  obtain ⟨sched, there, found⟩ := List.mem_filterMap.mp listed
  split at found
  · obtain ⟨queue, lookup, rfl⟩ := Option.map_eq_some_iff.mp found
    unfold spawn at spawned
    split at spawned
    · cases spawned
    · cases Option.some.inj spawned
      refine ⟨sched, there, queue, lookup, rfl, ?_, ?_⟩
      · exact List.mem_append_left _ (List.mem_map.mpr ⟨_, listed, rfl⟩)
      · exact List.mem_append_right _ (List.mem_map.mpr ⟨_, listed, rfl⟩)
  · cases found

/-- What a tick finds pending it sees as scheduled, with its dependencies. -/
theorem mem_pendingDependents {jobs : List JobRecord} {dependent : Uuid × List Uuid} :
    dependent ∈ pendingDependents jobs ↔ ∃ record ∈ jobs, record.job.id = dependent.1 ∧
      record.job.dependsOn = some dependent.2 ∧ record.job.status = .scheduled ∧
      record.job.noDeps = false := by
  obtain ⟨id, deps⟩ := dependent
  simp only [pendingDependents, List.mem_filterMap, Bool.and_eq_true, decide_eq_true_eq,
    Bool.not_eq_true']
  constructor
  · rintro ⟨record, member, found⟩
    split at found
    · rename_i waiting
      obtain ⟨other, depends, pair⟩ := Option.map_eq_some_iff.mp found
      cases pair
      exact ⟨record, member, rfl, depends, waiting⟩
    · cases found
  · rintro ⟨record, member, rfl, depends, waiting⟩
    exact ⟨record, member, by simp [waiting, depends]⟩

theorem Ticks.advance {current tick : Tick} (ticks : Ticks env state current tick locks) :
    Advance env state (.tick current) (.tick tick) locks := by
  cases ticks with
  | locked idle =>
    refine .tickRead rfl ?_ fun _ job member => .inl member
    intro id member
    simp [Session.targetIds, idle] at member
  | selectRateLimited _ _ due =>
    refine .tickRead rfl ?_ fun _ job member => .inl member
    intro id member
    simp only [Session.targetIds, List.map_map, Function.comp_def, List.append_nil,
      List.map_id'] at member
    obtain ⟨job, present, rfl, waiting⟩ := due id member
    exact .inr (view_parked present (due_waiting waiting))
  | selectUnlimited _ _ made =>
    cases made
    refine .tickRead rfl ?_ fun _ job member => .inl member
    intro id member
    simp only [Session.targetIds, List.map_map, Function.comp_def, List.append_nil] at member
    obtain ⟨job, listed, rfl⟩ := List.mem_map.mp member
    obtain ⟨present, matching⟩ := List.mem_filter.mp listed
    simp only [Bool.and_eq_true] at matching
    exact .inr (view_parked present (due_waiting matching.1))
  | promoteCronJobs idle _ made =>
    have spawned := promoteCronJobs_spawned made
    cases made
    refine .tickRead rfl ?_ ?_
    · intro id member
      simp [Session.targetIds, idle] at member
    · intro policies job member
      obtain ⟨_, _, _, _, rfl, _⟩ := spawned job member
      exact .inr (spawnedJob_fresh policies)
  | selectPending idle _ made =>
    cases made
    refine .tickRead rfl ?_ fun _ job member => .inl member
    intro id member
    right
    have pending : id ∈ (pendingDependents (current.view state.db)).map Prod.fst := by
      by_cases none : pendingDependents (current.view state.db) = []
      · simp [Session.targetIds, idle, none] at member
      · simpa [Session.targetIds, idle, none] using member
    obtain ⟨dependent, listed, rfl⟩ := List.mem_map.mp pending
    obtain ⟨seen, present, same, _, scheduled, _⟩ := mem_pendingDependents.mp listed
    rw [← same]
    exact view_parked (List.mem_map.mpr ⟨seen, present, rfl⟩) (.inl scheduled)
  | decideDependents idle stage made =>
    cases made
    refine .tickRead rfl ?_ fun _ job member => .inl member
    intro id member
    left
    simp only [Session.targetIds, List.append_nil] at member
    obtain ⟨target, listed, rfl⟩ := List.mem_map.mp member
    obtain ⟨dependent, present, decided⟩ := List.mem_filterMap.mp listed
    obtain ⟨change, _, rfl⟩ := Option.map_eq_some_iff.mp decided
    refine List.mem_append_right _ ?_
    simp only [stage]
    exact List.mem_map.mpr ⟨dependent, present, rfl⟩
  | skip =>
    refine .tickRead rfl ?_ fun _ job member => .inl member
    intro id member
    left
    rcases List.mem_append.mp member with waiting | pending
    · exact List.mem_append_left _ ((List.erase_sublist.map _).subset waiting)
    · exact List.mem_append_right _ pending
  | write chosen member same => exact .tickWrite chosen member same

theorem tickEffect_advance {current : Tick} {input : Input}
    (taken : tickEffect env state sid current input = some (.hold next locks)) :
    Advance env state (.tick current) next locks := by
  obtain ⟨tick, rfl, ticks⟩ := tickEffect_ticks taken
  exact ticks.advance

theorem lockJob_hold {jobId : Uuid} {allowed : JobStatus → Bool} {wanted : Session}
    (taken : lockJob state sid jobId allowed wanted = some (.hold next locks)) :
    next = wanted ∧ locks = [(.job jobId, .update)] ∧ ∃ record ∈ state.db.jobs,
      record.job.id = jobId ∧ allowed record.job.status = true := by
  unfold lockJob at taken
  split at taken
  · cases taken
  · rename_i record found
    obtain ⟨member, same⟩ := Db.findJob_some found
    split at taken
    · cases taken
    · split at taken
      · rename_i matching
        cases Option.some.inj taken
        exact ⟨rfl, rfl, record, member, same, matching⟩
      · cases taken

theorem lockLetter_advance {entryId : Uuid}
    (taken : lockLetter state sid entryId = some (.hold next locks)) :
    Advance env state .idle next locks := by
  unfold lockLetter at taken
  split at taken
  · cases taken
  · rename_i record entry found
    obtain ⟨seen, member, mapped⟩ := List.exists_of_findSome?_eq_some found
    obtain ⟨letter, listed, pair⟩ := Option.map_eq_some_iff.mp mapped
    cases pair
    split at taken
    · cases taken
    · split at taken
      · rename_i opened
        cases Option.some.inj taken
        exact .lockLetter member (List.mem_of_find?_eq_some listed)
          (by simpa using List.find?_some listed) (by simpa using opened)
      · cases taken

/-- The next statement of a session, where it keeps the transaction open. -/
theorem Session.effect_advance {session : Session} {input : Input}
    (distinct : (state.db.jobs.map fun record => record.job.id).Nodup)
    (taken : session.effect env state sid input = some (.hold next locks)) :
    Advance env state session next locks := by
  cases session with
  | idle | handing => cases taken
  | claimLocked => exact claimStatement_advance distinct taken
  | claimWritten => simp only [Session.effect, Option.some.injEq, reduceCtorEq] at taken
  | claimCommitted =>
    cases Option.some.inj taken
    exact .select
  | execute task =>
    obtain ⟨rfl, rfl, record, member, same, token⟩ := guarded_hold (Option.some.inj taken)
    exact .passFirst member same token
  | starting =>
    simp only [Session.effect, startEffect] at taken
    split at taken <;> cases taken
  | handling =>
    cases Option.some.inj taken
    exact .handled
  | returned =>
    obtain ⟨rfl, rfl, record, member, same, token⟩ := guarded_hold (Option.some.inj taken)
    exact .passSecond member same token
  | finishing => simp only [Session.effect, Option.some.injEq, reduceCtorEq] at taken
  | workerLoaded =>
    simp only [Session.effect] at taken
    split at taken <;> cases taken
  | reaperLocked =>
    cases Option.some.inj taken
    exact .readStale
  | reaperStale =>
    cases Option.some.inj taken
    exact .readSilent
  | reaperRead =>
    cases Option.some.inj taken
    exact .markDead
  | reaperMarked => exact sweepStatement_advance (Option.some.inj taken)
  | reaperSwept =>
    simp only [Session.effect, Option.some.injEq] at taken
    split at taken
    · exact pruneStatement_advance taken
    · cases taken
  | reaperPruned => simp only [Session.effect, sweepCommit, Option.some.injEq, reduceCtorEq] at taken
  | tick => exact tickEffect_advance taken
  | cancelling => simp only [Session.effect, Option.some.injEq, reduceCtorEq] at taken
  | retrying jobId =>
    obtain ⟨record, found, made⟩ := Option.map_eq_some_iff.mp taken
    cases made
    obtain ⟨member, same⟩ := Db.findJob_some found
    exact .supersede member same
  | superseded => simp only [Session.effect, requeueEffect, Option.some.injEq, reduceCtorEq] at taken
  | replaying entryId jobId =>
    simp only [Session.effect] at taken
    obtain ⟨rfl, rfl, record, member, same, dead⟩ := lockJob_hold taken
    exact .lockReplayed member same (by simpa using dead)
  | replayingJob => simp only [Session.effect, requeueEffect, Option.some.injEq, reduceCtorEq] at taken

/-- A request of one transaction never stops inside it. -/
theorem ApiCall.effect_ends {now : Time} {call : ApiCall} :
    call.effect env state now ≠ .hold next locks := by
  intro taken
  cases call <;> simp only [ApiCall.effect, answer, insertJobs, changeQueue, Pulse.deleteQueue,
    Pulse.deleteSchedule, reduceCtorEq] at taken
  all_goals (split at taken <;> cases taken)

/-- The first statement of a session. -/
theorem Request.effect_advance {request : Request}
    (taken : request.effect env state sid = some (.hold next locks)) :
    Advance env state .idle next locks := by
  cases request with
  | claimJobs =>
    simp only [Request.effect] at taken
    split at taken
    · rename_i acting
      cases Option.some.inj taken
      exact .lockClaims acting.1
    · cases taken
  | updateWorker =>
    simp only [Request.effect] at taken
    split at taken
    · rename_i acting
      split at taken
      · rename_i row found
        cases Option.some.inj taken
        exact .loadWorker acting found
      · cases taken
    · cases taken
  | reaper =>
    simp only [Request.effect, tryLock, Option.some.injEq] at taken
    split at taken
    · cases taken
    · cases taken
      exact .tryReaper
  | tick =>
    simp only [Request.effect, tryLock, Option.some.injEq] at taken
    split at taken
    · cases taken
    · cases taken
      exact .tryTick
  | cancelJob =>
    obtain ⟨rfl, rfl, record, member, same, allowed⟩ := lockJob_hold taken
    exact .lockCancel member same allowed
  | retryJob =>
    obtain ⟨rfl, rfl, record, member, same, allowed⟩ := lockJob_hold taken
    exact .lockRetry member same allowed
  | replayDlqEntry => exact lockLetter_advance taken
  | api => exact absurd (Option.some.inj taken) ApiCall.effect_ends

theorem lockLetter_hold {entryId : Uuid}
    (made : lockLetter state sid entryId = some (.hold next locks)) :
    ∃ owner, next = .replaying entryId owner := by
  unfold lockLetter at made
  split at made
  · cases made
  · split at made
    · cases made
    · split at made
      · cases Option.some.inj made
        exact ⟨_, rfl⟩
      · cases made

/-- Which request a retry, a replay or an update of a worker was begun by. -/
theorem Request.begins {request : Request}
    (made : request.effect env state sid = some (.hold next locks)) :
    (∀ jobId, next = .retrying jobId → request = .retryJob jobId) ∧
      (∀ entryId owner, next = .replaying entryId owner → request = .replayDlqEntry entryId) ∧
        ∀ workerId loaded update, next = .workerLoaded workerId loaded update →
          request = .updateWorker workerId update := by
  cases request with
  | claimJobs =>
    simp only [Request.effect] at made
    split at made
    · cases Option.some.inj made
      exact ⟨nofun, nofun, nofun⟩
    · cases made
  | updateWorker =>
    simp only [Request.effect] at made
    split at made
    · split at made
      · cases Option.some.inj made
        refine ⟨nofun, nofun, ?_⟩
        intro workerId loaded update same
        cases same
        rfl
      · cases made
    · cases made
  | reaper | tick =>
    simp only [Request.effect, tryLock, Option.some.injEq] at made
    split at made
    · cases made
    · cases made
      exact ⟨nofun, nofun, nofun⟩
  | cancelJob =>
    obtain ⟨rfl, _⟩ := lockJob_hold made
    exact ⟨nofun, nofun, nofun⟩
  | retryJob =>
    obtain ⟨rfl, _⟩ := lockJob_hold made
    refine ⟨?_, nofun, nofun⟩
    intro jobId same
    cases same
    rfl
  | replayDlqEntry =>
    obtain ⟨owner, rfl⟩ := lockLetter_hold made
    refine ⟨nofun, ?_, nofun⟩
    intro entryId owner same
    cases same
    rfl
  | api => exact absurd (Option.some.inj made) ApiCall.effect_ends

/-- A tick commits last. -/
theorem tickEffect_commit {current : Tick} {input : Input} {patch : Patch}
    (taken : tickEffect env state sid current input = some (.commit next locks patch)) :
    current.targets = [] ∧ current.stage = .committing ∧
      tickCommit state current = .commit next locks patch := by
  unfold tickEffect at taken
  split at taken
  · simp only [visitTarget] at taken
    split at taken
    · cases taken
    · split at taken
      · cases taken
      · cases taken
      · split at taken
        · cases taken
        · split at taken <;> cases taken
  · rename_i visited
    cases stage : current.stage with
    | promoting queues =>
      cases queues with
      | nil =>
        simp only [stage, Option.some.injEq] at taken
        cases taken
      | cons =>
        simp only [stage, selectRateLimited] at taken
        split at taken <;> cases taken
    | committing =>
      simp only [stage, Option.some.injEq] at taken
      exact ⟨by simpa using visited, rfl, taken⟩
    | _ =>
      simp only [stage, Option.some.injEq] at taken
      cases taken

theorem tickEffect_closes {current : Tick} {input : Input} {patch : Patch}
    (taken : tickEffect env state sid current input = some (.commit next locks patch)) :
    Closes env state (.tick current) next patch := by
  obtain ⟨_, _, made⟩ := tickEffect_commit taken
  cases made
  exact .tick

/-- The next statement of a session, where it commits. -/
theorem Session.effect_closes {session : Session} {input : Input} {patch : Patch}
    (taken : session.effect env state sid input = some (.commit next locks patch)) :
    Closes env state session next patch := by
  cases session with
  | idle | handing => cases taken
  | claimLocked =>
    simp only [Session.effect, claimStatement] at taken
    split at taken
    · split at taken
      · cases taken
      · split at taken <;> cases taken
    · cases taken
  | claimWritten =>
    cases Option.some.inj taken
    exact .claim
  | claimCommitted | handling | reaperLocked | reaperStale | reaperRead | reaperMarked =>
    cases Option.some.inj taken
  | execute | returned =>
    simp only [Session.effect, guarded, Option.some.injEq] at taken
    split at taken <;> cases taken
  | starting =>
    simp only [Session.effect, startEffect] at taken
    split at taken
    · cases taken
    · cases Option.some.inj taken
      exact .start
  | finishing =>
    cases Option.some.inj taken
    exact .finish
  | workerLoaded =>
    simp only [Session.effect] at taken
    split at taken
    · cases taken
    · cases Option.some.inj taken
      exact .worker
  | reaperSwept =>
    simp only [Session.effect, Option.some.injEq] at taken
    split at taken
    · cases taken
    · cases taken
      exact .sweep (.inl rfl)
  | reaperPruned =>
    cases Option.some.inj taken
    exact .sweep (.inr rfl)
  | tick => exact tickEffect_closes taken
  | cancelling =>
    cases Option.some.inj taken
    exact .cancel
  | retrying =>
    simp only [Session.effect, supersede, Option.map_eq_some_iff] at taken
    obtain ⟨_, _, made⟩ := taken
    cases made
  | superseded =>
    cases Option.some.inj taken
    exact .requeue (.inl rfl)
  | replaying =>
    simp only [Session.effect, lockJob] at taken
    split at taken
    · cases taken
    · split at taken
      · cases taken
      · split at taken <;> cases taken
  | replayingJob entryId =>
    cases Option.some.inj taken
    exact .requeue (.inr ⟨entryId, rfl, rfl⟩)

theorem ApiCall.effect_answers {now : Time} {call : ApiCall} {patch : Patch}
    (taken : call.effect env state now = .commit next locks patch) :
    next = .idle ∧ Answers env state now call locks patch := by
  cases call with
  | registerWorker =>
    cases taken
    exact ⟨rfl, .registerWorker⟩
  | deleteSchedule =>
    cases taken
    exact ⟨rfl, .deleteSchedule rfl⟩
  | deleteQueue =>
    cases taken
    exact ⟨rfl, .deleteQueue rfl⟩
  | deleteRetryPolicy =>
    cases taken
    exact ⟨rfl, .deleteRetryPolicy⟩
  | createJob =>
    simp only [ApiCall.effect, answer, insertJobs] at taken
    split at taken <;> cases taken
    rename_i made
    exact ⟨rfl, .createJob made⟩
  | createBatch =>
    simp only [ApiCall.effect, answer, insertJobs] at taken
    split at taken <;> cases taken
    rename_i made
    exact ⟨rfl, .createBatch made⟩
  | createSchedule =>
    simp only [ApiCall.effect, answer] at taken
    split at taken <;> cases taken
    rename_i made
    exact ⟨rfl, .createSchedule made⟩
  | updateSchedule =>
    simp only [ApiCall.effect, answer] at taken
    split at taken <;> cases taken
    rename_i made
    exact ⟨rfl, .updateSchedule made⟩
  | createQueue =>
    simp only [ApiCall.effect, answer] at taken
    split at taken <;> cases taken
    rename_i made
    exact ⟨rfl, .createQueue made⟩
  | updateQueue =>
    simp only [ApiCall.effect, answer, changeQueue] at taken
    split at taken <;> cases taken
    rename_i made
    exact ⟨rfl, .updateQueue made⟩
  | setPaused =>
    simp only [ApiCall.effect, answer, changeQueue] at taken
    split at taken <;> cases taken
    rename_i made
    exact ⟨rfl, .setPaused made⟩
  | createRetryPolicy =>
    simp only [ApiCall.effect, answer] at taken
    split at taken <;> cases taken
    rename_i made
    exact ⟨rfl, .createRetryPolicy made⟩
  | updateRetryPolicy =>
    simp only [ApiCall.effect, answer] at taken
    split at taken <;> cases taken
    rename_i made
    exact ⟨rfl, .updateRetryPolicy made⟩

/-- A session whose first statement commits has one of the requests of one transaction. -/
theorem Request.effect_closes {request : Request} {patch : Patch}
    (taken : request.effect env state sid = some (.commit next locks patch)) :
    ∃ now call, request = .api now call ∧ next = .idle ∧ Answers env state now call locks patch := by
  cases request with
  | claimJobs =>
    simp only [Request.effect] at taken
    split at taken <;> cases taken
  | updateWorker =>
    simp only [Request.effect] at taken
    split at taken
    · split at taken <;> cases taken
    · cases taken
  | reaper | tick =>
    simp only [Request.effect, tryLock, Option.some.injEq] at taken
    split at taken <;> cases taken
  | cancelJob | retryJob =>
    simp only [Request.effect, lockJob] at taken
    split at taken
    · cases taken
    · split at taken
      · cases taken
      · split at taken <;> cases taken
  | replayDlqEntry =>
    simp only [Request.effect, lockLetter] at taken
    split at taken
    · cases taken
    · split at taken
      · cases taken
      · split at taken <;> cases taken
  | api now call => exact ⟨now, call, rfl, ApiCall.effect_answers (Option.some.inj taken)⟩

end Classification

end Pulse
