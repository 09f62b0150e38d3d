import Mathlib.Data.List.Dedup
import Mathlib.Data.List.Perm.Subperm
import Pulse.Core.Rbac
import Pulse.Engine.Scheduler

/-! `POST /jobs`, `POST /jobs/batch` and the schedule endpoints of `api/jobs.py`,
each as what it inserts or changes. Authorization is not part of this module. -/
namespace Pulse

structure JobCreate where
  queueId : Uuid
  type : JobType
  handler : String
  payload : String := "\x7b\x7d"
  priority : Int := 0
  runAt : Option Time := none
  maxAttempts : Option Nat := none
  idempotencyKey : Option String := none
  dependsOn : Option (List Uuid) := none
deriving DecidableEq, Repr

/-- The field bounds and `_validate_type` of `JobCreate`. -/
def JobCreate.valid (body : JobCreate) : Bool :=
  1 ≤ body.handler.length && body.handler.length ≤ 200 &&
  -1000 ≤ body.priority && body.priority ≤ 1000 &&
  body.maxAttempts.all (fun limit => 1 ≤ limit && limit ≤ 100) &&
  body.idempotencyKey.all (fun key => key.length ≤ 200) &&
  body.dependsOn.all (fun deps => deps.length ≤ 100) &&
  body.type ≠ .batch && body.type ≠ .recurring &&
  !((body.type = .delayed || body.type = .scheduled) && body.runAt.isNone)

structure BatchJobItem where
  handler : String
  payload : String := "\x7b\x7d"
  priority : Int := 0
  idempotencyKey : Option String := none
deriving DecidableEq, Repr

structure JobBatchCreate where
  queueId : Uuid
  jobs : List BatchJobItem
  runAt : Option Time := none
deriving DecidableEq, Repr

def BatchJobItem.valid (item : BatchJobItem) : Bool :=
  1 ≤ item.handler.length && item.handler.length ≤ 200 &&
  -1000 ≤ item.priority && item.priority ≤ 1000 &&
  item.idempotencyKey.all (fun key => key.length ≤ 200)

/-- Only non-empty keys are compared with each other. -/
def JobBatchCreate.valid (body : JobBatchCreate) : Bool :=
  1 ≤ body.jobs.length && body.jobs.length ≤ 1000 &&
  body.jobs.all BatchJobItem.valid &&
  decide ((body.jobs.filterMap BatchJobItem.idempotencyKey).filter (· ≠ "")).Nodup

/-- `has_deps` is the truth value of the list. -/
def hasDeps (dependsOn : Option (List Uuid)) : Bool :=
  match dependsOn with
  | none | some [] => false
  | some _ => true

/-- `_initial_status_and_run_at`. -/
def initialStatusAndRunAt (now : Time) (runAt : Option Time) (hasDeps : Bool) :
    JobStatus × Time :=
  let effective := runAt.getD now
  if hasDeps then (.scheduled, effective)
  else if effective ≤ now then (.queued, effective)
  else (.scheduled, effective)

/-- `_validate_depends_on`. -/
def validateDependsOn (db : Db) (dependsOn : Option (List Uuid)) (projectId : Uuid) : Bool :=
  match dependsOn with
  | none | some [] => true
  | some deps =>
    let count := db.jobs.countP fun record =>
      record.job.id ∈ deps &&
        (db.findQueue record.job.queueId).any fun queue => queue.projectId = projectId
    count = deps.dedup.length

def Db.findKey (db : Db) (queueId : Uuid) (key : String) : Option JobRecord :=
  db.jobs.find? fun record =>
    record.job.queueId = queueId && record.job.idempotencyKey = some key

def defaultMaxAttempts (db : Db) (queue : Queue) : Nat :=
  match db.retryPolicyOf queue with
  | some policy => policy.maxAttempts
  | none => 3

/-- The row which `create_job` inserts. -/
def JobCreate.row (db : Db) (now : Time) (id : Uuid) (queue : Queue) (body : JobCreate) : Job :=
  let initial := initialStatusAndRunAt now body.runAt (hasDeps body.dependsOn)
  { id, queueId := queue.id, type := body.type, status := initial.1
    priority := body.priority, payload := body.payload, handler := body.handler
    runAt := initial.2
    maxAttempts := body.maxAttempts.getD (defaultMaxAttempts db queue)
    idempotencyKey := body.idempotencyKey, dependsOn := body.dependsOn }

/-- `create_job` as one transaction; `none` answers with the job which already
has the key. An empty key is not looked up, but the unique index still sees it. -/
def createJob (db : Db) (now : Time) (id : Uuid) (body : JobCreate) :
    Except ApiError (Option Job) :=
  if !body.valid then .error (.unprocessable "Request validation failed")
  else match db.findQueue body.queueId with
    | none => .error (.notFound "Queue not found")
    | some queue =>
      let existing := body.idempotencyKey.bind (db.findKey queue.id)
      if existing.isSome && body.idempotencyKey ≠ some "" then .ok none
      else if !validateDependsOn db body.dependsOn queue.projectId then
        .error (.unprocessable "One or more depends_on job ids do not exist in this project")
      else if existing.isSome then .ok none
      else .ok (some (body.row db now id queue))

/-- The rows which `create_batch` inserts, with ids counted up from `first`. -/
def JobBatchCreate.rows (db : Db) (now : Time) (first batchId : Uuid) (queue : Queue)
    (body : JobBatchCreate) : List Job :=
  let initial := initialStatusAndRunAt now body.runAt false
  body.jobs.mapIdx fun index item =>
    { id := first + index, queueId := queue.id, type := .batch, status := initial.1
      priority := item.priority, payload := item.payload, handler := item.handler
      runAt := initial.2, maxAttempts := defaultMaxAttempts db queue
      idempotencyKey := item.idempotencyKey, batchId := some batchId }

/-- `create_batch`: the unique index refuses the whole batch when one of its keys
is taken in the queue or, being empty, occurs twice. -/
def createBatch (db : Db) (now : Time) (first batchId : Uuid) (body : JobBatchCreate) :
    Except ApiError (List Job) :=
  if !body.valid then .error (.unprocessable "Request validation failed")
  else match db.findQueue body.queueId with
    | none => .error (.notFound "Queue not found")
    | some queue =>
      let keys := body.jobs.filterMap BatchJobItem.idempotencyKey
      if ¬ keys.Nodup || keys.any fun key => (db.findKey queue.id key).isSome then
        .error (.conflict "The request conflicts with existing data")
      else .ok (body.rows db now first batchId queue)

structure JobScheduleCreate where
  queueId : Uuid
  cronExpr : String
  timezone : String := "UTC"
  handler : String
  payload : String := "\x7b\x7d"
deriving DecidableEq, Repr

/-- `create_schedule`; the two 422 answers of the source are one failure of
`getNext` here. -/
def createSchedule (getNext : GetNext) (db : Db) (now : Time) (id : Uuid)
    (body : JobScheduleCreate) : Except ApiError ScheduledJob :=
  match db.findQueue body.queueId with
  | none => .error (.notFound "Queue not found")
  | some queue =>
    match getNext body.cronExpr body.timezone now with
    | none => .error (.unprocessable ("Invalid cron expression: " ++ body.cronExpr))
    | some nextRunAt => .ok {
        id, queueId := queue.id, cronExpr := body.cronExpr, timezone := body.timezone,
        handler := body.handler, payload := body.payload, isActive := true, nextRunAt,
        lastRunAt := none }

/-- `update_schedule`: resuming recomputes `next_run_at` from now, and fails as a
whole when that raises. -/
def updateSchedule (getNext : GetNext) (db : Db) (now : Time) (id : Uuid) (isActive : Bool) :
    Except ApiError (ScheduledJob → ScheduledJob) :=
  match db.scheduledJobs.find? fun sched => sched.id = id with
  | none => .error (.notFound "Schedule not found")
  | some sched =>
    if isActive && !sched.isActive then
      match getNext sched.cronExpr sched.timezone now with
      | none => .error (.unprocessable "An unexpected error occurred")
      | some nextRunAt => .ok fun row => { row with isActive := true, nextRunAt := nextRunAt }
    else .ok fun row => { row with isActive := isActive }

section Inserted
variable {db : Db} {now : Time} {id first batchId : Uuid}

/-- What `create_job` has checked when it inserts. -/
theorem createJob_row {body : JobCreate} {job : Job}
    (created : createJob db now id body = .ok (some job)) :
    ∃ queue, db.findQueue body.queueId = some queue ∧ body.valid = true ∧
      validateDependsOn db body.dependsOn queue.projectId = true ∧
      body.idempotencyKey.bind (db.findKey queue.id) = none ∧ job = body.row db now id queue := by
  unfold createJob at created
  split at created
  · cases created
  rename_i valid
  split at created
  · cases created
  rename_i queue found
  dsimp only at created
  split at created
  · cases created
  split at created
  · cases created
  rename_i depends
  split at created
  · cases created
  rename_i absent
  cases created
  exact ⟨queue, found, by simpa using valid, by simpa using depends, by simpa using absent, rfl⟩

/-- What `create_batch` has checked when it inserts. -/
theorem createBatch_rows {body : JobBatchCreate} {jobs : List Job}
    (created : createBatch db now first batchId body = .ok jobs) :
    ∃ queue, db.findQueue body.queueId = some queue ∧ jobs = body.rows db now first batchId queue := by
  unfold createBatch at created
  split at created
  · cases created
  split at created
  · cases created
  rename_i queue found
  dsimp only at created
  split at created
  · cases created
  cases created
  exact ⟨queue, found, rfl⟩

theorem mem_batch_rows {body : JobBatchCreate} {queue : Queue} {job : Job}
    (listed : job ∈ body.rows db now first batchId queue) :
    ∃ index < body.jobs.length, job.id = first + index ∧ job.queueId = queue.id ∧
      job.dependsOn = none ∧ job.scheduledJobId = none ∧
      job.status = (initialStatusAndRunAt now body.runAt false).1 ∧ job.finishedAt = none := by
  obtain ⟨index, within, rfl⟩ := List.mem_mapIdx.mp listed
  exact ⟨index, within, rfl, rfl, rfl, rfl, rfl, rfl⟩

theorem batch_rows_ids (body : JobBatchCreate) (queue : Queue) :
    (body.rows db now first batchId queue).map Job.id =
      (List.range (body.rows db now first batchId queue).length).map fun index => first + index := by
  apply List.ext_getElem
  · simp [JobBatchCreate.rows]
  · intro index _ _
    simp [JobBatchCreate.rows]

theorem createSchedule_row {getNext : GetNext} {db : Db} {now : Time} {id : Uuid}
    {body : JobScheduleCreate} {sched : ScheduledJob}
    (made : createSchedule getNext db now id body = .ok sched) :
    sched.id = id ∧ ∃ queue, db.findQueue body.queueId = some queue ∧ sched.queueId = queue.id := by
  unfold createSchedule at made
  split at made
  · cases made
  rename_i queue found
  split at made <;> cases made
  exact ⟨rfl, queue, found, rfl⟩

theorem updateSchedule_id {getNext : GetNext} {db : Db} {now : Time} {id : Uuid} {isActive : Bool}
    {f : ScheduledJob → ScheduledJob} (made : updateSchedule getNext db now id isActive = .ok f)
    (row : ScheduledJob) : (f row).id = row.id ∧ (f row).queueId = row.queueId := by
  unfold updateSchedule at made
  split at made
  · cases made
  · split at made
    · split at made <;> cases made
      exact ⟨rfl, rfl⟩
    · cases made
      exact ⟨rfl, rfl⟩

/-- A count of the distinct ids which equals their number means that each was found. -/
theorem validateDependsOn_found {dependsOn : Option (List Uuid)} {projectId : Uuid}
    (distinct : (db.jobs.map fun record => record.job.id).Nodup)
    (valid : validateDependsOn db dependsOn projectId = true) :
    ∀ dep ∈ dependsOn.getD [], ∃ record ∈ db.jobs, record.job.id = dep ∧
      ∃ queue, db.findQueue record.job.queueId = some queue ∧ queue.projectId = projectId := by
  unfold validateDependsOn at valid
  split at valid
  · simp
  · simp
  · rename_i deps _
    generalize matchesIs : (fun record : JobRecord => decide (record.job.id ∈ deps) &&
      (db.findQueue record.job.queueId).any fun queue => decide (queue.projectId = projectId)) =
      found at valid
    have chosen : ((db.jobs.filter found).map fun record => record.job.id).Nodup :=
      distinct.sublist (List.filter_sublist.map _)
    have listed : ((db.jobs.filter found).map fun record => record.job.id) ⊆ deps.dedup := by
      intro id member
      obtain ⟨record, kept, rfl⟩ := List.mem_map.mp member
      have passes := List.of_mem_filter kept
      rw [← matchesIs] at passes
      simp only [Bool.and_eq_true, decide_eq_true_eq] at passes
      exact List.mem_dedup.mpr passes.1
    have size : ((db.jobs.filter found).map fun record => record.job.id).length =
        deps.dedup.length := by
      rw [List.length_map, ← List.countP_eq_length_filter]
      simpa using valid
    have all := (chosen.subperm listed).perm_of_length_le size.ge
    intro dep member
    obtain ⟨record, kept, rfl⟩ := List.mem_map.mp (all.mem_iff.mpr (List.mem_dedup.mpr member))
    obtain ⟨present, passes⟩ := List.mem_filter.mp kept
    rw [← matchesIs] at passes
    simp only [Bool.and_eq_true, Option.any_eq_true, decide_eq_true_eq] at passes
    exact ⟨record, present, rfl, passes.2⟩

end Inserted

end Pulse
