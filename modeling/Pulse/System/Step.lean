import Pulse.System.State

/-! The statements of `claim_jobs`, `_execute`, the reaper, the scheduler tick and
the endpoints which change jobs, one step each. A step which would have to wait
for a row lock is not enabled. -/
namespace Pulse
open Library.RowLock Library.Lts

structure Settings where
  visibilityTimeoutSec : Nat := 30
  deadWorkerRetentionHours : Nat := 24
deriving Repr

structure Environment where
  handover : Handover
  settings : Settings := {}
  getNext : GetNext

/-- What a step takes from outside: clock readings, the rows a LIMIT keeps, the row
visited next, the handler's outcome and the random number. -/
structure Input where
  now : Time := 0
  picked : List Uuid := []
  jobId : Uuid := 0
  allowance : Nat := 0
  outcome : Outcome := .success
  durationMs : Int := 0
  uniform : ℚ := 0
  prune : Bool := false
deriving Repr

/-! `claim_jobs` and `_poll_once`. -/

/-- `_CLAIM_SQL`: `FOR UPDATE OF j SKIP LOCKED`, and the foreign key on the worker. -/
def claimStatement (state : System) (sid : Sid) (queueId workerId : Uuid) (limit : Nat)
    (now : Time) (input : Input) : Option Effect :=
  let eligible := (state.db.claimable queueId now).filter fun job =>
    !state.waits sid (.job job.id, .update)
  if Takes eligible (claimLimit limit (state.db.freeSlots queueId)) input.picked then
    let rows := (eligible.filter fun job => job.id ∈ input.picked).map fun job =>
      { jobId := job.id, token := state.draw job.id, attempts := job.attempts : ClaimedRow }
    if rows = [] then some (.hold (.claimWritten queueId workerId now []) [])
    else if (state.db.findWorker workerId).isNone then none
    else some (.hold (.claimWritten queueId workerId now rows)
      ((.worker workerId, .keyShare) :: rows.map fun row => (.job row.jobId, .update)))
  else none

/-- `UPDATE jobs SET status = 'claimed', ... FROM claimable`. -/
def claimWrite (workerId : Uuid) (now : Time) (rows : List ClaimedRow) (record : JobRecord) :
    JobRecord :=
  match rows.find? fun row => row.jobId = record.job.id with
  | some row => record.claim now workerId row.token
  | none => record

/-- The objects which `claim_jobs` returns. -/
def claimedTasks (handover : Handover) (db : Db) (workerId : Uuid) (rows : List ClaimedRow) :
    List Task :=
  match handover with
  | .reread => rows.filterMap fun row => (db.findJob row.jobId).map fun record =>
      { workerId, jobId := row.jobId, token := record.job.lockToken,
        attempt := record.job.attempts + 1, written := row.token }
  | .returning => rows.map fun row =>
      { workerId, jobId := row.jobId, token := some row.token, attempt := row.attempts + 1,
        written := row.token }

/-- A worker which still has claimed jobs to submit, or is done. -/
def handingOver (workerId : Uuid) (tasks : List Task) : Session :=
  if tasks = [] then .idle else .handing workerId tasks

/-! `_execute`. -/

/-- `load_for_transition`; SQLAlchemy renders a comparison with a None token as
`lock_token IS NULL`. -/
def loadForTransition (db : Db) (jobId : Uuid) (lockToken : Option Uuid) : Option JobRecord :=
  db.jobs.find? fun record => record.job.id = jobId && record.job.lockToken = lockToken

def guarded (state : System) (task : Task) (next : Session) : Effect :=
  match loadForTransition state.db task.jobId task.token with
  | some _ => .hold next [(.job task.jobId, .update)]
  | none => .rollback

/-- The first transaction; the execution's foreign key needs the worker's row. -/
def startEffect (state : System) (task : Task) (now : Time) : Option Effect :=
  let self := state.currentId task.workerId
  let executionId := state.draw task.jobId
  if (state.db.findWorker self).isNone then none
  else some (.commit (.handling task executionId) [(.worker self, .keyShare)] {
    job := onJob task.jobId fun record => record.start now executionId task.attempt })

/-- The second transaction. -/
def finishWrite (state : System) (task : Task) (executionId : Uuid) (durationMs : Int)
    (outcome : Outcome) (now : Time) (uniform : ℚ) (record : JobRecord) : JobRecord :=
  match outcome with
  | .success => record.complete now executionId durationMs
  | .failure errorType errorMessage =>
    let retryPolicy := (state.db.findQueue record.job.queueId).bind state.db.retryPolicyOf
    (record.chargeAttempt now executionId task.attempt durationMs errorType
      errorMessage).applyFailure now retryPolicy uniform (state.draw task.jobId) errorMessage

/-! Workers' own rows. -/

/-- The ORM writes a status only where it differs from the one loaded. -/
def WorkerUpdate.write (update : WorkerUpdate) (loaded : WorkerStatus) (now : Time)
    (row : Worker) : Worker :=
  let set (row : Worker) (status : WorkerStatus) : Worker :=
    if loaded = status then row else { row with status }
  match update with
  | .heartbeat none => { row with lastHeartbeatAt := some now }
  | .heartbeat (some busy) =>
    { set row (if busy then .active else .idle) with lastHeartbeatAt := some now }
  | .drain => set row .draining
  | .retire => { set row .dead with lastHeartbeatAt := some now }

/-! The reaper. -/

/-- The worker's row is dead in the reaper's own view. -/
def deadInView (db : Db) (lost : List Uuid) (workerId : Uuid) : Bool :=
  db.workers.any fun row => row.id = workerId && (markDead lost row).status = .dead

def sweepStatement (state : System) (sid : Sid) (now : Time) (lost : List Uuid) : Effect :=
  let orphans := (state.db.jobs.filter fun record =>
    record.job.status.inFlight && record.job.workerId.any (deadInView state.db lost) &&
      !state.waits sid (.job record.job.id, .update)).map fun record => record.job.id
  .hold (.reaperSwept { now, lost, orphans }) (orphans.map fun id => (.job id, .update))

/-- The workers deleted by `prune_telemetry`. -/
def prunedWorkers (settings : Settings) (db : Db) (lost : List Uuid) (now : Time) : List Uuid :=
  ((db.workers.map (markDead lost)).filter
    (Worker.longDead (now - 3600 * settings.deadWorkerRetentionHours))).map Worker.id

/-- `prune_telemetry`: the DELETE and the foreign key's `SET NULL` on the jobs which
the sweep has not already requeued. -/
def pruneStatement (settings : Settings) (state : System) (sweep : Sweep) (now : Time) : Effect :=
  let removed := prunedWorkers settings state.db sweep.lost now
  let unassigned := (state.db.jobs.filter fun record =>
    record.job.workerId.any (· ∈ removed) && record.job.id ∉ sweep.orphans).map
      fun record => record.job.id
  .hold (.reaperPruned { sweep with removed, unassigned })
    (removed.map (fun id => (.worker id, .update)) ++
      unassigned.map fun id => (.job id, .noKeyUpdate))

def sweepWrite (state : System) (sweep : Sweep) (record : JobRecord) : JobRecord :=
  if record.job.id ∈ sweep.orphans then record.reap sweep.now (state.draw record.job.id)
  else if record.job.id ∈ sweep.unassigned then record.unassign
  else record

def sweepCommit (state : System) (sweep : Sweep) : Effect :=
  .commit .idle [] {
    job := sweepWrite state sweep
    workers := fun rows => (rows.map (markDead sweep.lost)).filter fun row =>
      row.id ∉ sweep.removed }

/-! The scheduler tick. -/

/-- The tick's writes so far, as an UPDATE of each row. -/
def tickWrite (writes : List RowWrite) (record : JobRecord) : JobRecord :=
  match writes.find? fun write => write.jobId = record.job.id with
  | some write => write.change.write record
  | none => record

/-- The jobs as the tick's own transaction sees them. -/
def Tick.view (db : Db) (tick : Tick) : List JobRecord :=
  db.jobs.map (tickWrite tick.writes)

/-- An UPDATE gets the next of its rows: it waits for the row lock, evaluates its
column conditions again where it has any, and writes. A row deleted since is
skipped, but makes the ORM's write by primary key raise. -/
def visitTarget (state : System) (sid : Sid) (tick : Tick) (jobId : Uuid) : Option Effect :=
  match tick.targets.find? fun target => target.jobId = jobId with
  | none => none
  | some target =>
    let rest := { tick with targets := tick.targets.erase target }
    match state.db.findJob jobId, target.change with
    | none, .promote => some (.hold (.tick rest) [])
    | none, _ => some .rollback
    | some record, change =>
      if state.waits sid (.job jobId, .noKeyUpdate) then none
      else if target.recheck && !record.job.due tick.now then some (.hold (.tick rest) [])
      else
        let write := { jobId, change, found := record.job.status : RowWrite }
        some (.hold (.tick { rest with writes := write :: tick.writes })
          [(.job jobId, .noKeyUpdate)])

/-- The subquery of `_promote_rate_limited_queue`; what it selects is not evaluated
again. -/
def selectRateLimited (state : System) (tick : Tick) (queueId : Uuid) (rest : List Uuid)
    (input : Input) : Option Effect :=
  let due := ((tick.view state.db).map JobRecord.job).filter fun job =>
    job.queueId = queueId && job.due tick.now
  if Takes due input.allowance input.picked then
    some (.hold (.tick { tick with
      stage := .promoting rest
      targets := input.picked.map fun jobId => { jobId, change := .promote, recheck := false } })
      [])
  else none

/-- The snapshot of the UPDATE of `promote_due_jobs`. -/
def selectUnlimited (state : System) (tick : Tick) : Effect :=
  let due := ((tick.view state.db).map JobRecord.job).filter fun job =>
    job.due tick.now && job.queueId ∉ tick.rateLimited
  .hold (.tick { tick with
    stage := .spawning
    targets := due.map fun job => { jobId := job.id, change := .promote, recheck := true } }) []

def promoteCronJobs (getNext : GetNext) (state : System) (tick : Tick) (now : Time) : Effect :=
  let due := state.db.dueSchedules tick.now
  let spawns := due.map fun pair => spawn getNext state.db now pair.1 pair.2
  .hold (.tick { tick with
    stage := .resolving
    spawned := spawns.filterMap fun pair => pair.2
    schedules := spawns.map fun pair => pair.1 })
    (due.map (fun pair => (.scheduledJob pair.1.id, .noKeyUpdate)) ++
      due.map fun pair => (.queue pair.2.id, .keyShare))

def selectPending (state : System) (tick : Tick) : Effect :=
  let pending := pendingDependents (tick.view state.db)
  .hold (.tick { tick with
    stage := if pending = [] then .committing else .deciding pending }) []

def decideDependents (state : System) (tick : Tick) (pending : List (Uuid × List Uuid))
    (now : Time) : Effect :=
  let targets := pending.filterMap fun dependent =>
    (resolveDependent (statusById (tick.view state.db)) now dependent.2).map fun change =>
      { jobId := dependent.1, change, recheck := false : Target }
  .hold (.tick { tick with stage := .committing, targets := targets }) []

/-- The new rows of a tick get their ids. -/
def numbered (first : Uuid) (jobs : List Job) : List Job :=
  jobs.mapIdx fun index job => { job with id := first + index }

def tickCommit (state : System) (tick : Tick) : Effect :=
  .commit .idle [] {
    job := tickWrite tick.writes
    newJobs := numbered state.nextUuid tick.spawned
    scheduledJobs := fun rows => rows.map fun row =>
      tick.schedules.foldl (fun row change => change.write row) row }

def tickEffect (env : Environment) (state : System) (sid : Sid) (tick : Tick) (input : Input) :
    Option Effect :=
  if tick.targets ≠ [] then visitTarget state sid tick input.jobId
  else match tick.stage with
    | .locked =>
      let limited := (state.db.queues.filter fun queue => queue.rateLimitPerSec.isSome).map
        Queue.id
      some (.hold (.tick { tick with stage := .promoting limited, rateLimited := limited }) [])
    | .promoting (queueId :: rest) => selectRateLimited state tick queueId rest input
    | .promoting [] => some (selectUnlimited state tick)
    | .spawning => some (promoteCronJobs env.getNext state tick input.now)
    | .resolving => some (selectPending state tick)
    | .deciding pending => some (decideDependents state tick pending input.now)
    | .committing => some (tickCommit state tick)

/-! `retry_job`, `cancel_job`, `replay_dlq_entry`. -/

/-- A request locks a job and goes on where its status allows, else answers 404 or
409. -/
def lockJob (state : System) (sid : Sid) (jobId : Uuid) (allowed : JobStatus → Bool)
    (next : Session) : Option Effect :=
  match state.db.findJob jobId with
  | none => some .rollback
  | some record =>
    if state.waits sid (.job jobId, .update) then none
    else if allowed record.job.status then some (.hold next [(.job jobId, .update)])
    else some .rollback

/-- The dead letter which a replay names, with its job. -/
def Db.findLetter (db : Db) (entryId : Uuid) : Option (JobRecord × DeadLetterEntry) :=
  db.jobs.findSome? fun record =>
    (record.deadLetters.find? fun entry => entry.id = entryId).map fun entry => (record, entry)

def lockLetter (state : System) (sid : Sid) (entryId : Uuid) : Option Effect :=
  match state.db.findLetter entryId with
  | none => some .rollback
  | some (record, entry) =>
    if state.waits sid (.deadLetter entryId, .update) then none
    else if entry.replayedAt.isNone then
      some (.hold (.replaying entryId record.job.id) [(.deadLetter entryId, .update)])
    else some .rollback

/-- `UPDATE dead_letter_queue ... WHERE job_id = ... AND replayed_at IS NULL`. -/
def supersede (state : System) (jobId : Uuid) : Option Effect :=
  (state.db.findJob jobId).map fun record =>
    let entries := record.openLetters.map DeadLetterEntry.id
    .hold (.superseded jobId entries) (entries.map fun id => (.deadLetter id, .noKeyUpdate))

/-- Consume dead letters and requeue their job. -/
def requeueEffect (jobId : Uuid) (entries : List Uuid) (now : Time) : Effect :=
  .commit .idle [] { job := onJob jobId fun record => (record.consume now entries).reset now }

/-! Requests of one transaction. -/

inductive ApiCall where
  | registerWorker
  | createJob (body : JobCreate)
  | createBatch (body : JobBatchCreate)
  | createSchedule (body : JobScheduleCreate)
  | updateSchedule (id : Uuid) (isActive : Bool)
  | deleteSchedule (id : Uuid)
  | createQueue (body : QueueCreate)
  | updateQueue (id : Uuid) (body : QueueUpdate)
  | setPaused (id : Uuid) (isPaused : Bool)
  | deleteQueue (id : Uuid)
  | createRetryPolicy (body : RetryPolicyCreate)
  | updateRetryPolicy (id : Uuid) (body : RetryPolicyUpdate)
  | deleteRetryPolicy (id : Uuid)
deriving DecidableEq, Repr

/-- An error answer changes nothing. -/
def answer {α : Type} (result : Except ApiError α) (effect : α → Effect) : Effect :=
  match result with
  | .ok value => effect value
  | .error _ => .rollback

def insertJobs (jobs : List Job) : Effect :=
  .commit .idle (jobs.map fun job => (.queue job.queueId, .keyShare)) { newJobs := jobs }

def changeQueue (id : Uuid) (f : Queue → Queue) : Effect :=
  .commit .idle [] { queues := fun rows => rows.map (onId Queue.id id f) }

/-- `DELETE FROM queues` and its cascades. -/
def deleteQueue (db : Db) (queueId : Uuid) : Effect :=
  let doomed := db.jobs.filter fun record => record.job.queueId = queueId
  .commit .idle
    ((.queue queueId, .update) :: doomed.map (fun record => (.job record.job.id, .update)) ++
      doomed.flatMap fun record => record.deadLetters.map fun entry =>
        (.deadLetter entry.id, .update))
    { deletedJobs := doomed.map fun record => record.job.id
      queues := fun rows => rows.filter fun row => row.id ≠ queueId
      scheduledJobs := fun rows => rows.filter fun row => row.queueId ≠ queueId }

/-- `DELETE FROM scheduled_jobs`; the jobs it spawned lose the reference. -/
def deleteSchedule (db : Db) (id : Uuid) : Effect :=
  let spawned := db.jobs.filter fun record => record.job.scheduledJobId = some id
  .commit .idle
    ((.scheduledJob id, .update) ::
      spawned.map fun record => (.job record.job.id, .noKeyUpdate))
    { job := fun record => record.detach id
      scheduledJobs := fun rows => rows.filter fun row => row.id ≠ id }

def ApiCall.effect (env : Environment) (state : System) (now : Time) : ApiCall → Effect
  | .registerWorker => .commit .idle [] { workers := fun rows => rows ++ [{
      id := state.nextUuid, status := .idle, registeredAt := now, lastHeartbeatAt := some now }] }
  | .createJob body => answer (Pulse.createJob state.db now state.nextUuid body) fun created =>
      insertJobs created.toList
  | .createBatch body =>
      answer (Pulse.createBatch state.db now (state.nextUuid + 1) state.nextUuid body) insertJobs
  | .createSchedule body =>
      answer (Pulse.createSchedule env.getNext state.db now state.nextUuid body) fun sched =>
        .commit .idle [] { scheduledJobs := fun rows => rows ++ [sched] }
  | .updateSchedule id isActive =>
      answer (Pulse.updateSchedule env.getNext state.db now id isActive) fun f =>
        .commit .idle [(.scheduledJob id, .noKeyUpdate)]
          { scheduledJobs := fun rows => rows.map (onId ScheduledJob.id id f) }
  | .deleteSchedule id => Pulse.deleteSchedule state.db id
  | .createQueue body => answer (Pulse.createQueue state.db state.nextUuid body) fun queue =>
      .commit .idle [] { queues := fun rows => rows ++ [queue] }
  | .updateQueue id body => answer (Pulse.updateQueue state.db id body) (changeQueue id)
  | .setPaused id isPaused => answer (Pulse.setPaused state.db id isPaused) (changeQueue id)
  | .deleteQueue id => Pulse.deleteQueue state.db id
  | .createRetryPolicy body =>
      answer (Pulse.createRetryPolicy state.nextUuid body) fun policy =>
        .commit .idle [] { retryPolicies := fun rows => rows ++ [policy] }
  | .updateRetryPolicy id body => answer (Pulse.updateRetryPolicy body) fun f =>
      .commit .idle [] { retryPolicies := fun rows => rows.map (onId RetryPolicy.id id f) }
  | .deleteRetryPolicy id => .commit .idle [] {
      retryPolicies := fun rows => rows.filter fun row => row.id ≠ id
      queues := fun rows => rows.map fun row =>
        if row.retryPolicyId = some id then { row with retryPolicyId := none } else row }

/-! Steps. -/

/-- The first statement of an idle session. -/
inductive Request where
  | claimJobs (queueId workerId : Uuid) (limit : Nat) (now : Time)
  | updateWorker (workerId : Uuid) (update : WorkerUpdate)
  | reaper
  | tick (now : Time)
  | cancelJob (jobId : Uuid)
  | retryJob (jobId : Uuid)
  | replayDlqEntry (entryId : Uuid)
  | api (now : Time) (call : ApiCall)
deriving DecidableEq, Repr

/-- `pg_try_advisory_xact_lock`: whoever does not get the lock gives up. -/
def tryLock (state : System) (sid : Sid) (key : Key) (next : Session) : Effect :=
  if state.waits sid (key, .update) then .rollback else .hold next [(key, .update)]

/-- A running process acts under its current id. -/
def System.acting (state : System) (workerId : Uuid) : Prop :=
  state.live workerId ∧ state.currentId workerId = workerId

instance (state : System) (workerId : Uuid) : Decidable (state.acting workerId) :=
  inferInstanceAs (Decidable (_ ∧ _))

def Request.effect (env : Environment) (state : System) (sid : Sid) : Request → Option Effect
  | .claimJobs queueId workerId limit now =>
    if state.acting workerId ∧ 0 < limit then
      some (.hold (.claimLocked queueId workerId limit now) [(.queueClaims queueId, .update)])
    else none
  | .updateWorker workerId update =>
    if state.acting workerId then
      match state.db.findWorker workerId with
      | some row => some (.hold (.workerLoaded workerId row.status update) [])
      | none => some .rollback
    else none
  | .reaper => some (tryLock state sid .reaperLock .reaperLocked)
  | .tick now => some (tryLock state sid .schedulerLock (.tick { now }))
  | .cancelJob jobId => lockJob state sid jobId JobStatus.cancellable (.cancelling jobId)
  | .retryJob jobId => lockJob state sid jobId JobStatus.retryable (.retrying jobId)
  | .replayDlqEntry entryId => lockLetter state sid entryId
  | .api now call => some (call.effect env state now)

/-- The next statement of a session. -/
def Session.effect (env : Environment) (state : System) (sid : Sid) (input : Input) :
    Session → Option Effect
  | .idle | .handing _ _ => none
  | .claimLocked queueId workerId limit now =>
    claimStatement state sid queueId workerId limit now input
  | .claimWritten _ workerId now rows => some (.commit
      (if rows = [] then .idle else .claimCommitted workerId rows) []
      { job := claimWrite workerId now rows })
  | .claimCommitted workerId rows => some (.hold
      (handingOver workerId (claimedTasks env.handover state.db workerId rows)) [])
  | .execute task => some (guarded state task (.starting task))
  | .starting task => startEffect state task input.now
  | .handling task executionId =>
    some (.hold (.returned task executionId input.durationMs input.outcome) [])
  | .returned task executionId durationMs outcome =>
    some (guarded state task (.finishing task executionId durationMs outcome))
  | .finishing task executionId durationMs outcome => some (.commit .idle [] {
      job := onJob task.jobId
        (finishWrite state task executionId durationMs outcome input.now input.uniform) })
  | .workerLoaded workerId loaded update =>
    if (state.db.findWorker workerId).isNone then none
    else some (.commit .idle [(.worker workerId, .noKeyUpdate)] {
      workers := fun rows => rows.map (onId Worker.id workerId (update.write loaded input.now)) })
  | .reaperLocked =>
    let cutoff := input.now - env.settings.visibilityTimeoutSec
    some (.hold (.reaperStale input.now
      ((state.db.workers.filter (Worker.stale cutoff)).map Worker.id)) [])
  | .reaperStale now stale =>
    let cutoff := now - env.settings.visibilityTimeoutSec
    some (.hold (.reaperRead now (stale ++
      (state.db.workers.filter (Worker.neverHeartbeat cutoff)).map Worker.id)) [])
  | .reaperRead now lost =>
    some (.hold (.reaperMarked now lost) (lost.map fun id => (.worker id, .noKeyUpdate)))
  | .reaperMarked now lost => some (sweepStatement state sid now lost)
  | .reaperSwept sweep =>
    some (if input.prune then pruneStatement env.settings state sweep input.now
      else sweepCommit state sweep)
  | .reaperPruned sweep => some (sweepCommit state sweep)
  | .tick progress => tickEffect env state sid progress input
  | .cancelling jobId => some (.commit .idle [] {
      job := onJob jobId fun record => record.cancel input.now })
  | .retrying jobId => supersede state jobId
  | .superseded jobId entries => some (requeueEffect jobId entries input.now)
  | .replaying entryId jobId => lockJob state sid jobId (· = .dead) (.replayingJob entryId jobId)
  | .replayingJob entryId jobId => some (requeueEffect jobId [entryId] input.now)

inductive Action where
  | begin (sid : Sid) (request : Request)
  | next (sid : Sid) (input : Input)
  | fail (sid : Sid)
  | submit (sid newSid : Sid)
  | exit (workerId : Uuid)
  | reregister (former : Uuid) (now : Time)
deriving Repr

/-- The first task of a hand-over runs in a session of its own. -/
def System.handed (state : System) (sid newSid : Sid) (workerId : Uuid) (task : Task)
    (rest : List Task) : System :=
  { state with
    sessions := Function.update
      (Function.update state.sessions sid (handingOver workerId rest)) newSid (.execute task) }

@[simp] theorem System.handed_sessions (state : System) (sid newSid : Sid) (workerId : Uuid)
    (task : Task) (rest : List Task) :
    (state.handed sid newSid workerId task rest).sessions = Function.update
      (Function.update state.sessions sid (handingOver workerId rest)) newSid (.execute task) :=
  rfl

/-- What holds of the two sessions of a submission and of the others holds of all. -/
theorem System.handed_forall {state : System} {sid newSid : Sid} {workerId : Uuid} {task : Task}
    {rest : List Task} (property : Sid → Session → Prop)
    (submitted : property newSid (.execute task))
    (remaining : property sid (handingOver workerId rest))
    (others : ∀ other, other ≠ sid → property other (state.sessions other)) (other : Sid) :
    property other ((state.handed sid newSid workerId task rest).sessions other) :=
  System.update_sessions property submitted
    (fun other _ => System.update_sessions property remaining others other) other

/-- `await self.runtime.submit(self._execute(job))`. -/
def System.submit (state : System) (sid newSid : Sid) : Option System :=
  match state.sessions sid, state.sessions newSid with
  | .handing workerId (task :: rest), .idle =>
    if state.live workerId then some (state.handed sid newSid workerId task rest) else none
  | _, _ => none

/-- A heartbeat found the worker's own row deleted and registers it anew. -/
def System.reregister (state : System) (former : Uuid) (now : Time) : System :=
  { state with
    db := { state.db with workers := state.db.workers ++ [{
      id := state.nextUuid, status := .idle, registeredAt := now, lastHeartbeatAt := some now }] }
    currentId := fun id =>
      if state.currentId id = former then state.nextUuid else state.currentId id
    nextUuid := 2 * state.nextUuid }

def step (env : Environment) (state : System) : Action → Option System
  | .begin sid request =>
    if state.sessions sid = .idle then
      (request.effect env state sid).bind (state.perform sid)
    else none
  | .next sid input =>
    if (state.sessions sid).worker.all fun workerId => state.live workerId then
      ((state.sessions sid).effect env state sid input).bind (state.perform sid)
    else none
  | .fail sid =>
    if (state.sessions sid).fallible || (state.sessions sid).worker.any fun workerId =>
      ¬ state.live workerId
    then state.perform sid .rollback
    else none
  | .submit sid newSid => state.submit sid newSid
  | .exit workerId =>
    if state.acting workerId ∧ workerId < state.nextUuid then
      some { state with exited := workerId :: state.exited }
    else none
  | .reregister former now =>
    if state.acting former ∧ former < state.nextUuid ∧ (state.db.findWorker former).isNone then
      some (state.reregister former now)
    else none

/-- Every run starts from an empty database with no session at work. -/
def pulse (env : Environment) : Machine System Action where
  init := fun state => state = {}
  step := step env

end Pulse
