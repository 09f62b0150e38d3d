import Pulse.Engine.Transitions

/-! What the statements of `claim.py`, `reaper.py` and `scheduler.py` select. -/
namespace Pulse

/-- `ORDER BY priority DESC, run_at ASC`. -/
def Job.before (first second : Job) : Bool :=
  second.priority < first.priority ||
    (first.priority = second.priority && first.runAt < second.runAt)

/-- `ORDER BY priority DESC, run_at ASC LIMIT limit` may return `picked`: rows
which the order does not distinguish come in any order. -/
def Takes (eligible : List Job) (limit : Nat) (picked : List Uuid) : Prop :=
  picked.Nodup ∧ picked.length = min limit eligible.length ∧
    (∀ id ∈ picked, ∃ job ∈ eligible, job.id = id) ∧
    ∀ job ∈ eligible, job.id ∈ picked → ∀ other ∈ eligible, other.id ∉ picked →
      other.before job = false

instance (eligible : List Job) (limit : Nat) (picked : List Uuid) :
    Decidable (Takes eligible limit picked) :=
  inferInstanceAs (Decidable (_ ∧ _))

section Order
variable {eligible : List Job} {limit : Nat} {picked : List Uuid}

/-- Neither of two jobs comes before the other where the order does not tell them apart. -/
theorem before_trans {first second third : Job} (left : second.before first = false)
    (right : third.before second = false) : third.before first = false := by
  simp only [Job.before, Bool.or_eq_false_iff, Bool.and_eq_false_iff, decide_eq_false_iff_not,
    not_lt] at *
  obtain ⟨high, early⟩ := left
  obtain ⟨higher, earlier⟩ := right
  refine ⟨high.trans' higher, ?_⟩
  grind

theorem before_total (first second : Job) :
    second.before first = false ∨ first.before second = false := by
  simp only [Job.before, Bool.or_eq_false_iff, Bool.and_eq_false_iff, decide_eq_false_iff_not,
    not_lt]
  grind

/-- The statement always returns rows. -/
theorem exists_takes (unique : (eligible.map Job.id).Nodup) (limit : Nat) :
    ∃ picked, Takes eligible limit picked := by
  let sorted := eligible.mergeSort fun first second => !second.before first
  have perm : sorted.Perm eligible := List.mergeSort_perm _ _
  have ordered : sorted.Pairwise fun first second => second.before first = false := by
    have sorts : sorted.Pairwise fun first second => (!second.before first) = true :=
      List.pairwise_mergeSort (fun first second third left right => by
        simpa using before_trans (by simpa using left) (by simpa using right))
        (fun first second => by simpa using before_total first second) eligible
    exact sorts.imp fun related => by simpa using related
  have distinct : (sorted.map Job.id).Nodup := (perm.map Job.id).nodup_iff.mpr unique
  refine ⟨(sorted.take limit).map Job.id, distinct.sublist ((List.take_sublist _ _).map _), ?_, ?_, ?_⟩
  · rw [List.length_map, List.length_take, perm.length_eq]
  · intro id listed
    obtain ⟨job, member, rfl⟩ := List.mem_map.mp listed
    exact ⟨job, perm.mem_iff.mp (List.mem_of_mem_take member), rfl⟩
  · intro job member listed other present unlisted
    obtain ⟨same, taken, equal⟩ := List.mem_map.mp listed
    have inside : same ∈ sorted := List.mem_of_mem_take taken
    rw [List.inj_on_of_nodup_map distinct inside (perm.mem_iff.mpr member) equal] at taken
    have behind : other ∈ sorted.drop limit := by
      have either := perm.mem_iff.mpr present
      rw [← List.take_append_drop limit sorted] at either
      rcases List.mem_append.mp either with front | back
      · exact absurd (List.mem_map.mpr ⟨other, front, rfl⟩) unlisted
      · exact back
    rw [← List.take_append_drop limit sorted] at ordered
    exact (List.pairwise_append.mp ordered).2.2 job taken other behind

end Order

/-! The claim statement. -/

def Db.inFlightCount (db : Db) (queueId : Uuid) : Nat :=
  db.jobs.countP fun record => record.job.queueId = queueId && record.job.status.inFlight

/-- The `capacity` query: no row for a paused or missing queue. -/
def Db.freeSlots (db : Db) (queueId : Uuid) : Option Int :=
  match db.findQueue queueId with
  | some queue =>
    if queue.isPaused then none
    else some (queue.concurrencyLimit - db.inFlightCount queueId)
  | none => none

/-- `LEAST(:limit, GREATEST((SELECT free_slots FROM capacity), 0))`, where
GREATEST ignores a null. -/
def claimLimit (limit : Nat) (freeSlots : Option Int) : Nat :=
  match freeSlots with
  | some free => min limit (max free 0).toNat
  | none => 0

/-- The `claimable` query before its LIMIT. -/
def Db.claimable (db : Db) (queueId : Uuid) (now : Time) : List Job :=
  (db.jobs.map JobRecord.job).filter fun job =>
    job.queueId = queueId && job.status = .queued && job.runAt ≤ now

/-! Promotion. -/

/-- `_no_deps`. -/
def Job.noDeps (job : Job) : Bool :=
  match job.dependsOn with
  | none | some [] => true
  | some _ => false

/-- `_DUE_FILTER`. -/
def Job.dueFilter (job : Job) : Bool :=
  (job.status = .scheduled && job.noDeps) || job.status = .retrying

/-- A job the promoting statements select at `now`. -/
def Job.due (now : Time) (job : Job) : Bool :=
  job.runAt ≤ now && job.dueFilter

/-- One column write of a tick to a job. -/
inductive Change where
  | promote
  | release (now : Time)
  | cancel (now : Time)
deriving DecidableEq, Repr

def Change.write : Change → JobRecord → JobRecord
  | .promote, record => record.promote
  | .release now, record => record.release now
  | .cancel now, record => record.cancel now

/-- The status which a tick's write leaves. -/
def Change.status : Change → JobStatus
  | .promote | .release _ => .queued
  | .cancel _ => .cancelled

@[simp] theorem Change.write_status (change : Change) (record : JobRecord) :
    (change.write record).job.status = change.status := by
  cases change <;> rfl

/-! Cron templates. -/

/-- The write of a tick to a template: deactivate it, or advance it. -/
inductive ScheduleWrite where
  | deactivate (scheduledJobId : Uuid)
  | advance (scheduledJobId : Uuid) (nextRunAt now : Time)
deriving DecidableEq, Repr

def ScheduleWrite.write (change : ScheduleWrite) (row : ScheduledJob) : ScheduledJob :=
  match change with
  | .deactivate target => onId ScheduledJob.id target ({ · with isActive := false }) row
  | .advance target nextRunAt now => onId ScheduledJob.id target
      ({ · with nextRunAt := nextRunAt, lastRunAt := some now }) row

theorem ScheduleWrite.write_id (change : ScheduleWrite) (row : ScheduledJob) :
    (change.write row).id = row.id := by
  cases change <;> simp only [ScheduleWrite.write, onId] <;> split <;> rfl

/-- What the writes of a tick to one template keep. -/
theorem writes_keep (property : ScheduledJob → ScheduledJob → Prop)
    (refl : ∀ row, property row row)
    (keeps : ∀ first row (change : ScheduleWrite), property first row →
      property first (change.write row))
    (changes : List ScheduleWrite) (row : ScheduledJob) :
    property row (changes.foldl (fun row change => change.write row) row) := by
  have general : ∀ (changes : List ScheduleWrite) (middle : ScheduledJob), property row middle →
      property row (changes.foldl (fun row change => change.write row) middle) := by
    intro changes
    induction changes with
    | nil => exact fun _ holds => holds
    | cons change rest ih => exact fun middle holds => ih _ (keeps row middle change holds)
  exact general changes row (refl row)

/-- The row which `promote_cron_jobs` inserts; its id is drawn at the insert. -/
def spawnedJob (db : Db) (queue : Queue) (sched : ScheduledJob) : Job where
  id := 0
  queueId := sched.queueId
  type := .recurring
  status := .queued
  priority := queue.priorityDefault
  payload := sched.payload
  handler := sched.handler
  runAt := sched.nextRunAt
  maxAttempts := match db.retryPolicyOf queue with
    | some policy => policy.maxAttempts
    | none => DEFAULT_MAX_ATTEMPTS
  cronExpr := some sched.cronExpr
  scheduledJobId := some sched.id

/-- `select(ScheduledJob).where(is_active, next_run_at <= now())` with its queue. -/
def Db.dueSchedules (db : Db) (txNow : Time) : List (ScheduledJob × Queue) :=
  db.scheduledJobs.filterMap fun sched =>
    if sched.isActive && sched.nextRunAt ≤ txNow then
      (db.findQueue sched.queueId).map fun queue => (sched, queue)
    else none

/-- `croniter(cron_expr, base).get_next()` in a time zone, `none` when it raises. -/
abbrev GetNext := String → String → Time → Option Time

/-- One iteration of `promote_cron_jobs`. -/
def spawn (getNext : GetNext) (db : Db) (now : Time) (sched : ScheduledJob) (queue : Queue) :
    ScheduleWrite × Option Job :=
  match getNext sched.cronExpr sched.timezone (max sched.nextRunAt now) with
  | none => (.deactivate sched.id, none)
  | some nextRunAt => (.advance sched.id nextRunAt now, some (spawnedJob db queue sched))

/-! Dependencies. -/

/-- `array_length(depends_on, 1)`: null for a null or an empty array. -/
def arrayLength (dependsOn : Option (List Uuid)) : Option Nat :=
  dependsOn.bind fun deps => if deps = [] then none else some deps.length

/-- `depends_on IS NOT NULL AND array_length(depends_on, 1) > 0`; a comparison with a null is
not true. -/
def Job.hasDeps (job : Job) : Bool :=
  job.dependsOn.isSome && (arrayLength job.dependsOn).any fun length => 0 < length

/-- `_no_deps`, clause by clause. -/
theorem noDeps_eq (job : Job) :
    job.noDeps = (job.dependsOn.isNone || (arrayLength job.dependsOn).isNone) := by
  unfold Job.noDeps arrayLength
  cases job.dependsOn with
  | none => rfl
  | some deps => cases deps <;> rfl

/-- The two filters on the dependencies are complements. -/
theorem hasDeps_eq (job : Job) : job.hasDeps = !job.noDeps := by
  rw [noDeps_eq, Job.hasDeps, arrayLength]
  cases job.dependsOn with
  | none => rfl
  | some deps => cases deps <;> simp

/-- The first query of `resolve_dependencies`. -/
def pendingDependents (jobs : List JobRecord) : List (Uuid × List Uuid) :=
  jobs.filterMap fun record =>
    if record.job.status = .scheduled && !record.job.noDeps then
      record.job.dependsOn.map fun deps => (record.job.id, deps)
    else none

/-- What it selects. -/
theorem pendingDependents_selects {jobs : List JobRecord} {jobId : Uuid} {deps : List Uuid} :
    (jobId, deps) ∈ pendingDependents jobs ↔ ∃ record ∈ jobs, record.job.id = jobId ∧
      record.job.status = .scheduled ∧ record.job.hasDeps = true ∧
        record.job.dependsOn = some deps := by
  simp only [pendingDependents, List.mem_filterMap, hasDeps_eq, Bool.not_eq_true']
  refine exists_congr fun record => and_congr_right fun _ => ?_
  constructor
  · intro found
    split at found
    · rename_i selected
      simp only [Bool.and_eq_true, decide_eq_true_eq, Bool.not_eq_true'] at selected
      obtain ⟨list, same, equal⟩ := Option.map_eq_some_iff.mp found
      cases equal
      exact ⟨rfl, selected.1, selected.2, same⟩
    · cases found
  · rintro ⟨rfl, status, gated, same⟩
    simp [status, gated, same]

def statusById (jobs : List JobRecord) (jobId : Uuid) : Option JobStatus :=
  (jobs.find? fun record => record.job.id = jobId).map fun record => record.job.status

theorem statusById_some {jobs : List JobRecord} {jobId : Uuid} {status : JobStatus}
    (found : statusById jobs jobId = some status) :
    ∃ record ∈ jobs, record.job.id = jobId ∧ record.job.status = status := by
  obtain ⟨record, seen, same⟩ := Option.map_eq_some_iff.mp found
  exact ⟨record, List.mem_of_find?_eq_some seen, by simpa using List.find?_some seen, same⟩

/-- The loop body of `resolve_dependencies`; a missing prerequisite leaves the
dependent gated. -/
def resolveDependent (statuses : Uuid → Option JobStatus) (now : Time) (dependsOn : List Uuid) :
    Option Change :=
  let wanted := dependsOn.dedup
  let depStatuses := wanted.filterMap statuses
  if depStatuses.length < wanted.length then none
  else if depStatuses.any fun status => status = .dead || status = .cancelled then
    some (.cancel now)
  else if depStatuses.all fun status => status = .completed then some (.release now)
  else none

/-! The reaper's reads. -/

/-- Not dead, heartbeated once, and not since the cutoff. -/
def Worker.stale (cutoff : Time) (worker : Worker) : Bool :=
  worker.status ≠ .dead && worker.lastHeartbeatAt.any fun beat => beat < cutoff

def Worker.neverHeartbeat (cutoff : Time) (worker : Worker) : Bool :=
  worker.status ≠ .dead && worker.lastHeartbeatAt.isNone && worker.registeredAt < cutoff

/-- The workers whose row `prune_telemetry` deletes. -/
def Worker.longDead (cutoff : Time) (worker : Worker) : Bool :=
  worker.status = .dead && worker.lastHeartbeatAt.any fun beat => beat < cutoff

/-- Set to dead the workers which the reaper found lost. -/
def markDead (lost : List Uuid) (worker : Worker) : Worker :=
  if worker.id ∈ lost then { worker with status := .dead } else worker

theorem markDead_id (lost : List Uuid) (row : Worker) : (markDead lost row).id = row.id := by
  unfold markDead
  split <;> rfl

end Pulse
