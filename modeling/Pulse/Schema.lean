import Mathlib.Data.Rat.Defs
import Mathlib.Algebra.Order.Ring.Rat
import Mathlib.Data.List.Nodup

/-! The tables of the job engine, with the columns its functions use. Times are
exact seconds; JSON payloads are opaque text. -/
namespace Pulse

abbrev Uuid := Nat
abbrev Time := ℚ

inductive RetryStrategy where
  | fixed | linear | exponential
deriving DecidableEq, Repr

inductive JobType where
  | immediate | delayed | scheduled | recurring | batch
deriving DecidableEq, Repr

inductive JobStatus where
  | scheduled | queued | claimed | running | completed | failed | retrying | dead | cancelled
deriving DecidableEq, Repr

inductive ExecutionStatus where
  | running | completed | failed
deriving DecidableEq, Repr

inductive WorkerStatus where
  | active | idle | draining | dead
deriving DecidableEq, Repr

/-- `status IN ('claimed', 'running')`. -/
def JobStatus.inFlight : JobStatus → Bool
  | .claimed | .running => true
  | _ => false

structure RetryPolicy where
  id : Uuid
  projectId : Uuid
  name : String
  strategy : RetryStrategy
  baseDelaySec : Nat
  maxDelaySec : Nat
  maxAttempts : Nat
  jitterPct : ℚ
deriving DecidableEq, Repr

structure Queue where
  id : Uuid
  projectId : Uuid
  retryPolicyId : Option Uuid
  name : String
  priorityDefault : Int
  concurrencyLimit : Nat
  rateLimitPerSec : Option Nat
  isPaused : Bool
deriving DecidableEq, Repr

structure Worker where
  id : Uuid
  status : WorkerStatus
  registeredAt : Time
  lastHeartbeatAt : Option Time
deriving DecidableEq, Repr

structure ScheduledJob where
  id : Uuid
  queueId : Uuid
  cronExpr : String
  timezone : String
  handler : String
  payload : String
  isActive : Bool
  nextRunAt : Time
  lastRunAt : Option Time
deriving DecidableEq, Repr

structure Job where
  id : Uuid
  queueId : Uuid
  type : JobType
  status : JobStatus
  priority : Int
  payload : String
  handler : String
  runAt : Time
  attempts : Nat := 0
  maxAttempts : Nat
  idempotencyKey : Option String := none
  lockToken : Option Uuid := none
  workerId : Option Uuid := none
  dependsOn : Option (List Uuid) := none
  batchId : Option Uuid := none
  cronExpr : Option String := none
  scheduledJobId : Option Uuid := none
  claimedAt : Option Time := none
  startedAt : Option Time := none
  finishedAt : Option Time := none
deriving DecidableEq, Repr

/-- `life` is auxiliary: how often the job had been reset when the row was
inserted. -/
structure JobExecution where
  id : Uuid
  attemptNumber : Nat
  status : ExecutionStatus
  startedAt : Time
  finishedAt : Option Time := none
  durationMs : Option Int := none
  errorType : Option String := none
  errorMessage : Option String := none
  life : Nat
deriving DecidableEq, Repr

/-- `life` is auxiliary, as for executions. -/
structure DeadLetterEntry where
  id : Uuid
  queueId : Uuid
  payload : String
  finalError : String
  totalAttempts : Nat
  failedAt : Time
  replayedAt : Option Time := none
  life : Nat
deriving DecidableEq, Repr

/-- A row of `jobs` with the rows of `job_executions` and `dead_letter_queue`
whose `job_id` names it, oldest first: `job_id` is a NOT NULL foreign key with
ON DELETE CASCADE in both tables. `resets` is auxiliary: how often `retry_job`
or a replay has reset the job. -/
structure JobRecord where
  job : Job
  executions : List JobExecution := []
  deadLetters : List DeadLetterEntry := []
  resets : Nat := 0
deriving DecidableEq, Repr

/-- The committed contents of the database. -/
structure Db where
  retryPolicies : List RetryPolicy := []
  queues : List Queue := []
  workers : List Worker := []
  scheduledJobs : List ScheduledJob := []
  jobs : List JobRecord := []
deriving DecidableEq, Repr

/-- What a transaction publishes when it commits. -/
structure Patch where
  job : JobRecord → JobRecord := id
  newJobs : List Job := []
  deletedJobs : List Uuid := []
  workers : List Worker → List Worker := id
  queues : List Queue → List Queue := id
  retryPolicies : List RetryPolicy → List RetryPolicy := id
  scheduledJobs : List ScheduledJob → List ScheduledJob := id

def Db.apply (db : Db) (patch : Patch) : Db where
  retryPolicies := patch.retryPolicies db.retryPolicies
  queues := patch.queues db.queues
  workers := patch.workers db.workers
  scheduledJobs := patch.scheduledJobs db.scheduledJobs
  jobs := (db.jobs.filter fun record => record.job.id ∉ patch.deletedJobs).map patch.job ++
    patch.newJobs.map fun job => { job }

/-- `UPDATE ... SET f WHERE id = value`, as a change of each row. -/
def onId {Row : Type} (key : Row → Uuid) (value : Uuid) (f : Row → Row) (row : Row) : Row :=
  if key row = value then f row else row

/-- `UPDATE jobs SET f WHERE id = jobId`. -/
def onJob (jobId : Uuid) : (JobRecord → JobRecord) → JobRecord → JobRecord :=
  onId (fun record => record.job.id) jobId

def Db.findJob (db : Db) (jobId : Uuid) : Option JobRecord :=
  db.jobs.find? fun record => record.job.id = jobId

def Db.findQueue (db : Db) (queueId : Uuid) : Option Queue :=
  db.queues.find? fun queue => queue.id = queueId

def Db.findWorker (db : Db) (workerId : Uuid) : Option Worker :=
  db.workers.find? fun worker => worker.id = workerId

/-- `queue.retry_policy`, which is null where the policy was deleted. -/
def Db.retryPolicyOf (db : Db) (queue : Queue) : Option RetryPolicy :=
  queue.retryPolicyId.bind fun id => db.retryPolicies.find? fun policy => policy.id = id

section Lookup
variable {db : Db}

theorem Db.findJob_some {jobId : Uuid} {record : JobRecord}
    (found : db.findJob jobId = some record) : record ∈ db.jobs ∧ record.job.id = jobId :=
  ⟨List.mem_of_find?_eq_some found, by simpa using List.find?_some found⟩

theorem Db.findJob_none {jobId : Uuid} (missing : db.findJob jobId = none) :
    ∀ record ∈ db.jobs, record.job.id ≠ jobId := by
  simpa [Db.findJob] using missing

theorem Db.findWorker_some {workerId : Uuid} {worker : Worker}
    (found : db.findWorker workerId = some worker) :
    worker ∈ db.workers ∧ worker.id = workerId :=
  ⟨List.mem_of_find?_eq_some found, by simpa using List.find?_some found⟩

/-- Job ids are unique, so a row is determined by its id. -/
theorem unique_record {jobs : List JobRecord} (distinct : (jobs.map (·.job.id)).Nodup)
    {first second : JobRecord} (left : first ∈ jobs) (right : second ∈ jobs)
    (same : first.job.id = second.job.id) : first = second :=
  List.inj_on_of_nodup_map distinct left right same

theorem mem_apply_jobs {patch : Patch} {record : JobRecord} :
    record ∈ (db.apply patch).jobs ↔
      (∃ old ∈ db.jobs, old.job.id ∉ patch.deletedJobs ∧ patch.job old = record) ∨
        ∃ job ∈ patch.newJobs, { job } = record := by
  simp [Db.apply, and_assoc]

end Lookup

/-- A change of rows in place keeps their ids. -/
theorem map_ids {Row : Type} {key : Row → Uuid} {f : Row → Row}
    (keeps : ∀ row, key (f row) = key row) (rows : List Row) :
    (rows.map f).map key = rows.map key := by
  rw [List.map_map]
  exact List.map_congr_left fun row _ => keeps row

theorem onId_id {Row : Type} {key : Row → Uuid} {value : Uuid} {f : Row → Row}
    (keeps : ∀ row, key (f row) = key row) (row : Row) : key (onId key value f row) = key row := by
  unfold onId
  split
  · exact keeps row
  · rfl

/-- How many rows of a table went from one kind into another. -/
def converted {Row : Type} (before after : List Row) (kind : Row → Row → Bool) : Nat :=
  (before.zip after).countP fun pair => kind pair.1 pair.2

theorem converted_map {Row : Type} (rows : List Row) (f : Row → Row) (kind : Row → Row → Bool) :
    converted rows (rows.map f) kind = rows.countP fun row => kind row (f row) := by
  unfold converted
  induction rows with
  | nil => rfl
  | cons row rest ih => simp only [List.map_cons, List.zip_cons_cons, List.countP_cons, ih]

theorem mem_zip_map {Row : Type} {rows : List Row} {f : Row → Row} {pair : Row × Row} :
    pair ∈ rows.zip (rows.map f) ↔ pair.1 ∈ rows ∧ pair.2 = f pair.1 := by
  obtain ⟨before, after⟩ := pair
  induction rows with
  | nil => simp
  | cons row rest ih =>
    simp only [List.map_cons, List.zip_cons_cons, List.mem_cons, Prod.mk.injEq, ih]
    constructor
    · rintro (⟨rfl, rfl⟩ | ⟨member, rfl⟩)
      · exact ⟨.inl rfl, rfl⟩
      · exact ⟨.inr member, rfl⟩
    · rintro ⟨rfl | member, rfl⟩
      · exact .inl ⟨rfl, rfl⟩
      · exact .inr ⟨member, rfl⟩

end Pulse
