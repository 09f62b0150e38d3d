import Mathlib.Algebra.Order.Floor.Ring
import Mathlib.Data.Rat.Floor
import Pulse.Core.Rbac
import Pulse.Library.Grouping
import Pulse.Library.Rounding
import Pulse.Schema

/-! The figures of `api/metrics.py`. Each SELECT of an endpoint reads the tables as they are
at its own moment. -/
namespace Pulse.Metrics
open Library.Grouping Library.Rounding Arithmetic

def MAX_WINDOW_SEC : Nat := 90 * 86400

inductive BucketSize where
  | minute | hour | day
deriving DecidableEq, Repr

def BucketSize.seconds : BucketSize → Nat
  | .minute => 60
  | .hour => 3600
  | .day => 86400

section Windows
variable (decimal : Char → Option Nat) (repr : List Char → String)

def secondsPerUnit (unit : Char) : Option Nat :=
  if unit = 'm' then some 60
  else if unit = 'h' then some 3600
  else if unit = 'd' then some 86400
  else none

/-- `int()` of decimal digits. -/
def intOf (digits : List Char) : Nat :=
  digits.foldl (fun value digit => 10 * value + (decimal digit).getD 0) 0

/-- `_WINDOW_RE.match`: `\d` is any decimal digit, with its value in `decimal`, and `$` also matches
before a last line feed. -/
def matchWindow (window : List Char) : Option (Nat × Nat) :=
  let digits := window.takeWhile fun letter => (decimal letter).isSome
  if 1 ≤ digits.length ∧ digits.length ≤ 6 then
    match window.drop digits.length with
    | [unit] | [unit, '\n'] => (secondsPerUnit unit).map fun seconds => (intOf decimal digits, seconds)
    | _ => none
  else none

def bucketSize (seconds : Nat) : BucketSize :=
  if seconds ≤ 3600 * 2 then .minute
  else if seconds ≤ 3600 * 24 * 3 then .hour
  else .day

/-- `_parse_window`; `repr` is that of Python. -/
def parseWindow (window : List Char) : Except ApiError (Nat × BucketSize) :=
  match matchWindow decimal window with
  | none => .error (.unprocessable
      ("invalid window " ++ repr window ++ " — expected e.g. 30m, 1h, 24h, 7d"))
  | some (value, secondsPerUnit) =>
    if value = 0 ∨ MAX_WINDOW_SEC < value * secondsPerUnit then
      .error (.unprocessable "window must be between 1m and 90d")
    else .ok (value * secondsPerUnit, bucketSize (value * secondsPerUnit))

end Windows

/-- `JOIN jobs JOIN queues WHERE queues.project_id = projectId`. -/
def jobsOf (db : Db) (projectId : Uuid) : List JobRecord :=
  db.jobs.filter fun record =>
    (db.findQueue record.job.queueId).any fun queue => queue.projectId = projectId

/-- The executions which ended no earlier. -/
def finishedSince (db : Db) (projectId : Uuid) (since : Time) : List JobExecution :=
  ((jobsOf db projectId).flatMap JobRecord.executions).filter fun execution =>
    execution.finishedAt.any fun time => since ≤ time

def ended (status : ExecutionStatus) (execution : JobExecution) : Bool := execution.status = status

/-- `completed / terminal if terminal > 0 else None`. -/
def successRate [Arithmetic] (completed failed : Nat) : Option ℚ :=
  if 0 < completed + failed then some (fl (completed / (completed + failed : Nat))) else none

structure MetricsOverview where
  throughputPerMin : ℚ
  successRate : Option ℚ
  activeWorkers : Nat
  queueDepthTotal : Nat
deriving DecidableEq

/-- What the SELECTs of `metrics_overview` read, under the names of their results. -/
structure OverviewReads where
  completed5m : Db
  completed1h : Db
  failed1h : Db
  activeWorkers : Db
  queueDepthTotal : Db

/-- `metrics_overview`, behind `ensure_role`; `projectOf` is the column of `workers`. -/
def metricsOverview [Arithmetic] (reads : OverviewReads) (projectOf : Uuid → Option Uuid)
    (visibilityTimeoutSec : Nat) (projectId : Uuid) (now : Time) : MetricsOverview :=
  let fiveMinAgo := now - 300
  let oneHourAgo := now - 3600
  { throughputPerMin := fl
      ((finishedSince reads.completed5m projectId fiveMinAgo).countP (ended .completed) / 5)
    successRate := successRate
      ((finishedSince reads.completed1h projectId oneHourAgo).countP (ended .completed))
      ((finishedSince reads.failed1h projectId oneHourAgo).countP (ended .failed))
    activeWorkers := reads.activeWorkers.workers.countP fun worker =>
      projectOf worker.id = some projectId && (worker.status = .active || worker.status = .idle) &&
        worker.lastHeartbeatAt.any fun beat => now - visibilityTimeoutSec ≤ beat
    queueDepthTotal := (jobsOf reads.queueDepthTotal projectId).countP fun record =>
      record.job.status = .queued }

structure ThroughputBucket where
  bucketStart : Time
  completed : Nat
  failed : Nat
deriving DecidableEq

/-- `date_trunc` of `finished_at`, in buckets since the epoch. -/
def truncated (size : BucketSize) (execution : JobExecution) : Int :=
  ⌊execution.finishedAt.getD 0 / size.seconds⌋

def throughput (db : Db) (projectId : Uuid) (size : BucketSize) (since : Time) :
    List ThroughputBucket :=
  let rows := finishedSince db projectId since
  (keys (truncated size) rows).map fun (bucket : Int) =>
    { bucketStart := bucket * size.seconds
      completed := (group (truncated size) rows bucket).countP (ended .completed)
      failed := (group (truncated size) rows bucket).countP (ended .failed) }

/-- `metrics_throughput`, behind `ensure_role`. -/
def metricsThroughput (decimal : Char → Option Nat) (repr : List Char → String) (db : Db)
    (projectId : Uuid) (window : List Char) (now : Time) :
    Except ApiError (BucketSize × List ThroughputBucket) := do
  let (delta, size) ← parseWindow decimal repr window
  return (size, throughput db projectId size (now - delta))

structure QueueMetric where
  queueId : Uuid
  name : String
  depth : Nat
  running : Nat
  successRate : Option ℚ
  avgDurationMs : Option ℚ
deriving DecidableEq

/-- One group of `GROUP BY jobs.queue_id, jobs.status`. -/
def count (db : Db) (projectId queueId : Uuid) (status : JobStatus) : Nat :=
  (jobsOf db projectId).countP fun record =>
    record.job.queueId = queueId && record.job.status = status

/-- `avg(duration_ms)` of the completed executions of a queue. -/
def avgDuration (db : Db) (projectId queueId : Uuid) : Option ℚ :=
  let durations := (((jobsOf db projectId).filter fun record => record.job.queueId = queueId).flatMap
    JobRecord.executions).filterMap fun execution =>
      if execution.status = .completed then execution.durationMs else none
  if durations = [] then none else some (durations.sum / durations.length)

def queueMetric [Arithmetic] (statusCounts avgDurations : Db) (projectId : Uuid) (queue : Queue) :
    QueueMetric :=
  let counts := count statusCounts projectId queue.id
  { queueId := queue.id
    name := queue.name
    depth := counts .queued
    running := counts .claimed + counts .running
    successRate := successRate (counts .completed) (counts .failed + counts .dead)
    avgDurationMs := avgDuration avgDurations projectId queue.id }

/-- `metrics_queues`, behind `ensure_role`; `queues` are the rows of its first SELECT, and the
other two read `statusCounts` and `avgDurations`. -/
def metricsQueues [Arithmetic] (statusCounts avgDurations : Db) (projectId : Uuid)
    (queues : List Queue) : List QueueMetric :=
  queues.map (queueMetric statusCounts avgDurations projectId)

end Pulse.Metrics
