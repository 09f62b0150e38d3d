import Mathlib.Tactic.Linarith
import Mathlib.Tactic.NormNum
import Mathlib.Tactic.Ring
import Pulse.Api.Metrics
import Pulse.Safety.Handlers

/-! What the figures of the dashboard add up to, over the runs of the engine. -/
namespace Pulse
open Library.Lts Library.Grouping Library.Rounding Arithmetic

/-- An execution has an end once it is over. -/
def JobExecution.Timed (execution : JobExecution) : Prop :=
  execution.finishedAt.isSome = true ↔ execution.status ≠ .running

def JobRecord.Timed (record : JobRecord) : Prop :=
  ∀ execution ∈ record.executions, execution.Timed

section Moves
variable {state : System} {session : Session} {record after : JobRecord}

theorem JobRecord.Timed.map (timed : record.Timed) {f : JobExecution → JobExecution}
    (keeps : ∀ execution, execution.Timed → (f execution).Timed) :
    ∀ execution ∈ record.executions.map f, execution.Timed := by
  intro execution member
  obtain ⟨before, was, rfl⟩ := List.mem_map.mp member
  exact keeps before (timed before was)

/-- The second transaction of `_execute` writes both. -/
theorem JobRecord.Timed.onExecution (timed : record.Timed) (executionId : Uuid)
    {f : JobExecution → JobExecution} (ends : ∀ execution, (f execution).Timed) :
    (record.onExecution executionId f).Timed := by
  refine timed.map fun execution before => ?_
  unfold onId
  split
  · exact ends execution
  · exact before

theorem JobRecord.Timed.chargeAttempt (timed : record.Timed) (now : Time) (executionId : Uuid)
    (attempt : Nat) (durationMs : Int) (errorType errorMessage : String) :
    (record.chargeAttempt now executionId attempt durationMs errorType errorMessage).Timed :=
  timed.onExecution executionId (f := fun execution => { execution with
    status := .failed, errorType := some errorType, errorMessage := some errorMessage,
    finishedAt := some now, durationMs := some durationMs }) fun _ => by simp [JobExecution.Timed]

theorem JobRecord.Timed.chargeLost (timed : record.Timed) (now : Time) :
    (record.chargeLost now).Timed := by
  refine timed.map fun execution before => ?_
  split
  · simp [JobExecution.Timed]
  · exact before

theorem Move.timed (move : Move state session record after) (timed : record.Timed) :
    after.Timed := by
  cases move with
  | start =>
    intro execution member
    rcases List.mem_append.mp member with old | new
    · exact timed execution old
    · rw [List.mem_singleton.mp new]
      simp [JobExecution.Timed]
  | @complete _ executionId durationMs now =>
    exact timed.onExecution executionId (f := fun execution => { execution with
      status := .completed, finishedAt := some now, durationMs := some durationMs })
      fun _ => by simp [JobExecution.Timed]
  | @backoff task executionId durationMs errorType errorMessage now =>
    exact timed.chargeAttempt now executionId task.attempt durationMs errorType errorMessage
  | @bury task executionId durationMs errorType errorMessage now =>
    exact timed.chargeAttempt now executionId task.attempt durationMs errorType errorMessage
  | requeueLost | buryLost => exact timed.chargeLost _
  | detach =>
    unfold JobRecord.detach
    split <;> exact timed
  | @write _ write => cases write.change <;> exact timed
  | keep | claim | requeueClaimed | unassign | cancel | retry | replay => exact timed

end Moves

section Runs
variable {env : Environment} {state after : System}

theorem timed_step (base : Base state) {action : Action} (guards : GuardsToken state action)
    (taken : step env state action = some after)
    (timed : ∀ record ∈ state.db.jobs, record.Timed) : ∀ record ∈ after.db.jobs, record.Timed := by
  cases step_cases base guards taken with
  | begin _ performs | next _ performs =>
    cases performs with
    | hold | rollback => exact timed
    | commit commits =>
      intro record member
      rcases commits.origin member with ⟨old, present, _, _, move⟩ | ⟨job, _, rfl⟩
      · exact move.timed (timed old present)
      · intro execution member
        cases member
  | _ => exact timed

/-- In every run an execution has an end exactly when it is over, and no job is `failed`. -/
theorem timed_reachable (reachable : (pulse env).Reachable GuardsToken state) :
    Base state ∧ ∀ record ∈ state.db.jobs, record.Timed := by
  refine @Machine.Reachable.invariant _ _ (pulse env) GuardsToken
    (fun state => Base state ∧ ∀ record ∈ state.db.jobs, record.Timed) ?_ ?_ state reachable
  · rintro _ rfl
    exact ⟨initial_base, by simp⟩
  · rintro earlier action next ⟨base, timed⟩ guards taken
    exact ⟨base.step guards taken, timed_step base guards taken timed⟩

end Runs

namespace Metrics
section Windows
variable {decimal : Char → Option Nat} {repr : List Char → String} {window : List Char}
  {delta : Nat} {size : BucketSize}

theorem secondsPerUnit_minute {unit : Char} {seconds : Nat}
    (known : secondsPerUnit unit = some seconds) : 60 ≤ seconds := by
  unfold secondsPerUnit at known
  split at known
  · cases known
    decide
  · split at known
    · cases known
      decide
    · split at known
      · cases known
        decide
      · cases known

theorem matchWindow_minute {value seconds : Nat}
    (found : matchWindow decimal window = some (value, seconds)) : 60 ≤ seconds := by
  simp only [matchWindow] at found
  split at found
  · split at found
    · obtain ⟨_, known, same⟩ := Option.map_eq_some_iff.mp found
      cases same
      exact secondsPerUnit_minute known
    · obtain ⟨_, known, same⟩ := Option.map_eq_some_iff.mp found
      cases same
      exact secondsPerUnit_minute known
    · cases found
  · cases found

/-- An accepted window is between a minute and 90 days. -/
theorem parseWindow_ok (accepted : parseWindow decimal repr window = .ok (delta, size)) :
    60 ≤ delta ∧ delta ≤ MAX_WINDOW_SEC ∧ size = bucketSize delta := by
  unfold parseWindow at accepted
  split at accepted
  · cases accepted
  · rename_i value seconds found
    split at accepted
    · cases accepted
    · rename_i within
      obtain ⟨positive, within⟩ := not_or.mp within
      cases accepted
      have minute := matchWindow_minute found
      refine ⟨?_, not_lt.mp within, rfl⟩
      calc 60 ≤ seconds := minute
        _ ≤ value * seconds := Nat.le_mul_of_pos_left seconds (Nat.pos_of_ne_zero positive)

/-- No window has more than 120 of its buckets, and a part of one. -/
theorem bucketSize_span (within : delta ≤ MAX_WINDOW_SEC) :
    delta ≤ 120 * (bucketSize delta).seconds := by
  unfold bucketSize
  split
  · simp only [BucketSize.seconds]
    omega
  · split
    · simp only [BucketSize.seconds]
      omega
    · simp only [BucketSize.seconds]
      exact within.trans (by decide)

end Windows

section Throughput
variable {db : Db} {projectId : Uuid} {size : BucketSize} {since : Time}

theorem seconds_pos (size : BucketSize) : (0 : ℚ) < size.seconds := by
  cases size <;> norm_num [BucketSize.seconds]

/-- The rows of a statement on the executions which are over. -/
theorem mem_finishedSince {execution : JobExecution}
    (member : execution ∈ finishedSince db projectId since) :
    (∃ record ∈ db.jobs, execution ∈ record.executions) ∧
      ∃ time, execution.finishedAt = some time ∧ since ≤ time := by
  obtain ⟨listed, late⟩ := List.mem_filter.mp member
  obtain ⟨record, inside, own⟩ := List.mem_flatMap.mp listed
  obtain ⟨time, some, later⟩ := (Option.any_eq_true _ _).mp late
  exact ⟨⟨record, List.mem_of_mem_filter inside, own⟩, time, some, of_decide_eq_true later⟩

/-- Whoever has an end is either completed or failed. -/
theorem countP_ended {rows : List JobExecution}
    (finished : ∀ execution ∈ rows, execution.status ≠ .running) :
    rows.countP (ended .completed) + rows.countP (ended .failed) = rows.length := by
  induction rows with
  | nil => rfl
  | cons execution rest ih =>
    have rest := ih fun other member => finished other (List.mem_cons_of_mem _ member)
    have here := finished execution List.mem_cons_self
    rw [List.countP_cons, List.countP_cons, List.length_cons]
    cases status : execution.status with
    | running => exact absurd status here
    | completed | failed =>
      simp only [ended, status, reduceCtorEq, decide_true, decide_false, if_true, Bool.false_eq_true,
        if_false] at rest ⊢
      omega

theorem sum_completed : ((throughput db projectId size since).map ThroughputBucket.completed).sum =
    (finishedSince db projectId since).countP (ended .completed) := by
  rw [throughput, List.map_map]
  exact sum_keys (ended .completed)

theorem sum_failed : ((throughput db projectId size since).map ThroughputBucket.failed).sum =
    (finishedSince db projectId since).countP (ended .failed) := by
  rw [throughput, List.map_map]
  exact sum_keys (ended .failed)

theorem throughput_ordered : (throughput db projectId size since).Pairwise
    fun first second => first.bucketStart + (size.seconds : ℚ) ≤ second.bucketStart := by
  refine List.pairwise_map.mpr (keys_ordered.imp fun {first second} before => ?_)
  have next : ((first : ℚ) + 1) ≤ second := by exact_mod_cast before
  change (first : ℚ) * size.seconds + size.seconds ≤ second * size.seconds
  calc (first : ℚ) * size.seconds + size.seconds = (first + 1) * size.seconds := by ring
    _ ≤ second * size.seconds := mul_le_mul_of_nonneg_right next (seconds_pos size).le

/-- No bucket is empty, and none lies before the window. -/
theorem throughput_bucket (finished : ∀ execution ∈ finishedSince db projectId since,
    execution.status ≠ .running) {bucket : ThroughputBucket}
    (member : bucket ∈ throughput db projectId size since) :
    0 < bucket.completed + bucket.failed ∧ since < bucket.bucketStart + size.seconds := by
  obtain ⟨index, occurs, rfl⟩ := List.mem_map.mp member
  obtain ⟨execution, inside⟩ := group_nonempty occurs
  obtain ⟨listed, same⟩ := List.mem_filter.mp inside
  have same : truncated size execution = index := of_decide_eq_true same
  constructor
  · have ends : ∀ other ∈ group (truncated size) (finishedSince db projectId since) index,
        other.status ≠ .running :=
      fun other chosen => finished other (List.mem_of_mem_filter chosen)
    exact countP_ended ends ▸ List.length_pos_of_mem inside
  · obtain ⟨_, time, some, later⟩ := mem_finishedSince listed
    have below : time / size.seconds < index + 1 := by
      rw [← same, truncated, some]
      exact Int.lt_floor_add_one _
    calc since ≤ time := later
      _ = time / size.seconds * size.seconds := (div_mul_cancel₀ time (seconds_pos size).ne').symm
      _ < (index + 1) * size.seconds := mul_lt_mul_of_pos_right below (seconds_pos size)
      _ = index * size.seconds + size.seconds := by ring

/-- Whoever ended since falls in no bucket before that of the beginning. -/
theorem truncated_since {execution : JobExecution}
    (member : execution ∈ finishedSince db projectId since) :
    ⌊since / (size.seconds : ℚ)⌋ ≤ truncated size execution := by
  obtain ⟨_, time, some, later⟩ := mem_finishedSince member
  rw [truncated, some]
  exact Int.floor_le_floor (div_le_div_of_nonneg_right later (seconds_pos size).le)

/-- From the bucket of its beginning to that of its end a window has 120 steps. -/
theorem truncated_span {delta : Nat} {now : Time} (within : delta ≤ MAX_WINDOW_SEC) :
    ⌊now / ((bucketSize delta).seconds : ℚ)⌋ ≤
      ⌊(now - delta) / ((bucketSize delta).seconds : ℚ)⌋ + 120 := by
  have positive := seconds_pos (bucketSize delta)
  have long : (delta : ℚ) ≤ 120 * (bucketSize delta).seconds := by
    exact_mod_cast bucketSize_span within
  have span : (now : ℚ) / (bucketSize delta).seconds ≤
      (now - delta) / (bucketSize delta).seconds + 120 := by
    rw [div_add' _ _ _ positive.ne']
    exact div_le_div_of_nonneg_right (by linarith) positive.le
  calc ⌊now / ((bucketSize delta).seconds : ℚ)⌋
      ≤ ⌊(now - delta) / ((bucketSize delta).seconds : ℚ) + (120 : ℤ)⌋ :=
        Int.floor_le_floor (by exact_mod_cast span)
    _ = ⌊(now - delta) / ((bucketSize delta).seconds : ℚ)⌋ + 120 := Int.floor_add_intCast _ _

/-- No more than 121 of the buckets have begun. -/
theorem throughput_length {delta : Nat} {now : Time} (within : delta ≤ MAX_WINDOW_SEC) :
    (throughput db projectId (bucketSize delta) (now - delta)).countP
      (fun bucket => bucket.bucketStart ≤ now) ≤ 121 := by
  generalize shown : keys (truncated (bucketSize delta))
    (finishedSince db projectId (now - delta)) = indices
  have counted : (throughput db projectId (bucketSize delta) (now - delta)).countP
      (fun bucket => bucket.bucketStart ≤ now) =
        (indices.filter fun index : Int => (index : ℚ) * (bucketSize delta).seconds ≤ now).length := by
    rw [throughput, List.countP_map, ← List.countP_eq_length_filter, shown]
    rfl
  have distinct : (indices.filter fun index : Int =>
      (index : ℚ) * (bucketSize delta).seconds ≤ now).Nodup := (shown ▸ keys_nodup).filter _
  have bounds : ∀ index ∈ indices.filter fun index : Int =>
      (index : ℚ) * (bucketSize delta).seconds ≤ now,
      ⌊(now - delta) / ((bucketSize delta).seconds : ℚ)⌋ ≤ index ∧
        index ≤ ⌊now / ((bucketSize delta).seconds : ℚ)⌋ := by
    intro index member
    obtain ⟨occurs, begun⟩ := List.mem_filter.mp member
    constructor
    · obtain ⟨execution, listed, rfl⟩ := mem_keys.mp (shown ▸ occurs)
      exact truncated_since listed
    · exact Int.le_floor.mpr ((le_div_iff₀ (seconds_pos _)).mpr (of_decide_eq_true begun))
  rw [counted]
  refine (length_le_of_bounded distinct bounds).trans ?_
  have high := @truncated_span delta now within
  omega

end Throughput

section Queues
variable {db : Db} {projectId queueId : Uuid} {queues : List Queue}

theorem count_group (status : JobStatus) : count db projectId queueId status =
    (group (fun record => record.job.queueId) (jobsOf db projectId) queueId).countP
      fun record => record.job.status = status := by
  rw [count, group, List.countP_filter]
  refine List.countP_congr fun record _ => ?_
  rw [Bool.and_comm]

/-- The jobs of some queues in one status, queue by queue and all at once. -/
theorem sum_counts (single : (queues.map Queue.id).Nodup) (status : JobStatus) :
    (queues.map fun queue => count db projectId queue.id status).sum =
      (jobsOf db projectId).countP fun record =>
        record.job.queueId ∈ queues.map Queue.id && record.job.status = status := by
  have grouped : (queues.map fun queue => count db projectId queue.id status) =
      (queues.map Queue.id).map fun queueId =>
        (group (fun record => record.job.queueId) (jobsOf db projectId) queueId).countP
          fun record => record.job.status = status := by
    rw [List.map_map]
    exact List.map_congr_left fun queue _ => count_group status
  rw [grouped, sum_groups single]

/-- The queue of a job which the dashboard counts is one of the project's. -/
theorem queue_of_jobsOf {record : JobRecord} (counted : record ∈ jobsOf db projectId) :
    ∃ queue ∈ db.queues, queue.projectId = projectId ∧ queue.id = record.job.queueId := by
  obtain ⟨_, inside⟩ := List.mem_filter.mp counted
  obtain ⟨queue, found, own⟩ := (Option.any_eq_true _ _).mp inside
  have same : queue.id = record.job.queueId := by simpa using List.find?_some found
  exact ⟨queue, List.mem_of_find?_eq_some found, of_decide_eq_true own, same⟩

/-- Where no queue of the project is missing, all of its jobs count. -/
theorem sum_counts_listed (single : (queues.map Queue.id).Nodup)
    (listed : ∀ queue ∈ db.queues, queue.projectId = projectId → queue.id ∈ queues.map Queue.id)
    (status : JobStatus) : (queues.map fun queue => count db projectId queue.id status).sum =
      (jobsOf db projectId).countP fun record => record.job.status = status := by
  rw [sum_counts single]
  refine List.countP_congr fun record counted => ?_
  obtain ⟨queue, present, own, same⟩ := queue_of_jobsOf counted
  have member := listed queue present own
  rw [same] at member
  simp only [member, decide_true, Bool.true_and]

end Queues

section Runs
variable {env : Environment} {state listed : System} {decimal : Char → Option Nat}
  {repr : List Char → String} {projectId : Uuid} {window : List Char} {now : Time}
  {size : BucketSize} {buckets : List ThroughputBucket} {queues : List Queue}

theorem finished_over (timed : ∀ record ∈ state.db.jobs, record.Timed) {since : Time} :
    ∀ execution ∈ finishedSince state.db projectId since, execution.status ≠ .running := by
  intro execution member
  obtain ⟨⟨record, present, own⟩, time, some, _⟩ := mem_finishedSince member
  exact (timed record present execution own).mp (by rw [some]; rfl)

/-- The buckets of a window. -/
theorem throughput_agrees (reachable : (pulse env).Reachable GuardsToken state)
    (answered : metricsThroughput decimal repr state.db projectId window now = .ok (size, buckets)) :
    ∃ delta : Nat, parseWindow decimal repr window = .ok (delta, size) ∧
    60 ≤ delta ∧ delta ≤ MAX_WINDOW_SEC ∧
    buckets.Pairwise (fun first second =>
      first.bucketStart + (size.seconds : ℚ) ≤ second.bucketStart) ∧
    (∀ bucket ∈ buckets, 0 < bucket.completed + bucket.failed ∧
      now - delta < bucket.bucketStart + size.seconds) ∧
    buckets.countP (fun bucket => bucket.bucketStart ≤ now) ≤ 121 ∧
    (buckets.map ThroughputBucket.completed).sum =
      (finishedSince state.db projectId (now - delta)).countP (ended .completed) ∧
    (buckets.map ThroughputBucket.failed).sum =
      (finishedSince state.db projectId (now - delta)).countP (ended .failed) ∧
    (buckets.map ThroughputBucket.completed).sum + (buckets.map ThroughputBucket.failed).sum =
      (finishedSince state.db projectId (now - delta)).length := by
  have timed := (timed_reachable reachable).2
  simp only [metricsThroughput] at answered
  cases parsed : parseWindow decimal repr window with
  | error error =>
    rw [parsed] at answered
    cases answered
  | ok pair =>
    obtain ⟨delta, chosen⟩ := pair
    rw [parsed] at answered
    cases answered
    obtain ⟨least, within, rfl⟩ := parseWindow_ok parsed
    refine ⟨delta, rfl, least, within, throughput_ordered, ?_, throughput_length within,
      sum_completed, sum_failed, ?_⟩
    · exact fun bucket member => throughput_bucket (finished_over timed) member
    · rw [sum_completed, sum_failed]
      exact countP_ended (finished_over timed)

/-- The queues which one SELECT has listed, and their jobs when another one counts them. -/
theorem queues_agree [Arithmetic] (reachable : (pulse env).Reachable GuardsToken state)
    (listing : (pulse env).Reachable GuardsToken listed)
    (answered : queues.Perm (listed.db.queues.filter fun queue => queue.projectId = projectId))
    (avgDurations : Db) :
    ((metricsQueues state.db avgDurations projectId queues).map QueueMetric.depth).sum =
      ((jobsOf state.db projectId).countP fun record =>
        record.job.queueId ∈ queues.map Queue.id && record.job.status = .queued) ∧
    ((∀ queue ∈ state.db.queues, queue.projectId = projectId → queue.id ∈ queues.map Queue.id) →
      ((metricsQueues state.db avgDurations projectId queues).map QueueMetric.depth).sum =
        (jobsOf state.db projectId).countP fun record => record.job.status = .queued) ∧
    ∀ queue ∈ queues, (queueMetric state.db avgDurations projectId queue).successRate =
      successRate (count state.db projectId queue.id .completed)
        (count state.db projectId queue.id .dead) := by
  have base := (timed_reachable reachable).1
  have distinct := (Shape.reachable listing).issued.queues.1
  have single : (queues.map Queue.id).Nodup :=
    (answered.map Queue.id).nodup_iff.mpr (distinct.sublist (List.filter_sublist.map _))
  refine ⟨?_, fun every => ?_, fun queue _ => ?_⟩
  · rw [metricsQueues, List.map_map]
    exact sum_counts single .queued
  · rw [metricsQueues, List.map_map]
    exact sum_counts_listed single every .queued
  · have none : count state.db projectId queue.id .failed = 0 := by
      refine List.countP_eq_zero.mpr fun record member => ?_
      have live := (base.sound record (List.mem_of_mem_filter member)).notFailed
      simp [live]
    rw [queueMetric, none, Nat.zero_add]

/-- In every run, and whatever commits between the SELECTs of an endpoint: the buckets of an
accepted window follow each other, and each execution which ended since counts in one of them, as
completed or as failed; each figure of the overview is what these windows tell of the moment at which
its own SELECT reads; and the queues which are listed have the depth which the overview shows, where
none has been created before their jobs are counted. -/
theorem figures_agree [Arithmetic] (reachable : (pulse env).Reachable GuardsToken state) :
    (∀ window size buckets,
      metricsThroughput decimal repr state.db projectId window now = .ok (size, buckets) →
      ∃ delta : Nat, parseWindow decimal repr window = .ok (delta, size) ∧
      60 ≤ delta ∧ delta ≤ MAX_WINDOW_SEC ∧
      buckets.Pairwise (fun first second =>
        first.bucketStart + (size.seconds : ℚ) ≤ second.bucketStart) ∧
      (∀ bucket ∈ buckets, 0 < bucket.completed + bucket.failed ∧
        now - delta < bucket.bucketStart + size.seconds) ∧
      buckets.countP (fun bucket => bucket.bucketStart ≤ now) ≤ 121 ∧
      (buckets.map ThroughputBucket.completed).sum + (buckets.map ThroughputBucket.failed).sum =
        (finishedSince state.db projectId (now - delta)).length ∧
      ∀ reads projectOf visibilityTimeoutSec,
        let overview := metricsOverview reads projectOf visibilityTimeoutSec projectId now
        (delta = 300 → reads.completed5m = state.db →
          overview.throughputPerMin = fl ((buckets.map ThroughputBucket.completed).sum / 5)) ∧
        (delta = 3600 → reads.completed1h = state.db → ∀ later laterBuckets,
          (pulse env).Reachable GuardsToken later → reads.failed1h = later.db →
          metricsThroughput decimal repr later.db projectId window now = .ok (size, laterBuckets) →
          overview.successRate = successRate (buckets.map ThroughputBucket.completed).sum
            (laterBuckets.map ThroughputBucket.failed).sum)) ∧
    ∀ listed queues, (pulse env).Reachable GuardsToken listed →
      queues.Perm (listed.db.queues.filter fun queue => queue.projectId = projectId) →
      ∀ avgDurations, let shown := metricsQueues state.db avgDurations projectId queues
      (shown.map QueueMetric.depth).sum = ((jobsOf state.db projectId).countP fun record =>
        record.job.queueId ∈ queues.map Queue.id && record.job.status = .queued) ∧
      ((∀ queue ∈ state.db.queues, queue.projectId = projectId → queue.id ∈ queues.map Queue.id) →
        ∀ reads projectOf visibilityTimeoutSec, reads.queueDepthTotal = state.db →
          (shown.map QueueMetric.depth).sum =
            (metricsOverview reads projectOf visibilityTimeoutSec projectId now).queueDepthTotal) ∧
      ∀ queue ∈ queues, (queueMetric state.db avgDurations projectId queue).successRate =
        successRate (count state.db projectId queue.id .completed)
          (count state.db projectId queue.id .dead) := by
  constructor
  · intro window size buckets answered
    obtain ⟨delta, parsed, least, within, ordered, inside, length, completed, _, total⟩ :=
      throughput_agrees reachable answered
    refine ⟨delta, parsed, least, within, ordered, inside, length, total, ?_⟩
    intro reads projectOf visibilityTimeoutSec
    constructor
    · rintro rfl same
      rw [completed, ← same]
      norm_num [metricsOverview]
    · rintro rfl same later laterBuckets reached other again
      obtain ⟨again, parsed', _, _, _, _, _, _, failed, _⟩ := throughput_agrees reached again
      obtain rfl : 3600 = again := (Prod.mk.inj (Except.ok.inj (parsed.symm.trans parsed'))).1
      rw [completed, failed, ← same, ← other]
      norm_num [metricsOverview]
  · intro listed queues listing answered avgDurations
    obtain ⟨depths, every, rates⟩ := queues_agree reachable listing answered avgDurations
    refine ⟨depths, fun complete reads projectOf visibilityTimeoutSec same => ?_, rates⟩
    rw [metricsOverview, same]
    exact every complete

/-- `repr` of a string without quotes and control characters. -/
def quoted (letters : List Char) : String := "'" ++ String.ofList letters ++ "'"

def ascii (letter : Char) : Option Nat :=
  if letter.isDigit then some (letter.toNat - 48) else none

attribute [local instance] binary64

/-- All SELECTs of the overview but the first two read `later`. -/
def splitReads (earlier later : Db) : OverviewReads where
  completed5m := earlier
  completed1h := earlier
  failed1h := later
  activeWorkers := later
  queueDepthTotal := later

/-- A job fails once and then completes, within one minute of the last hour. Had the SELECTs of the
overview read before and after all of it, they would have shown a rate of no single moment. -/
theorem figures_agree_failedOnce : ∃ state,
    (pulse (sample .returning)).Reachable GuardsToken state ∧
    metricsThroughput ascii quoted state.db 0 ['1', 'h'] 400 = .ok (.minute, [⟨0, 1, 1⟩]) ∧
    (finishedSince state.db 0 (400 - (3600 : Nat))).length = 2 ∧
    (metricsOverview (splitReads state.db state.db) (fun _ => some 0) 60 0 400).successRate =
      some (1 / 2) ∧
    (metricsOverview (splitReads {} state.db) (fun _ => some 0) 60 0 400).successRate = some 0 ∧
    ((metricsQueues state.db state.db 0
      (state.db.queues.filter fun queue => queue.projectId = 0)).map QueueMetric.depth).sum =
        (metricsOverview (splitReads {} state.db) (fun _ => some 0) 60 0 400).queueDepthTotal := by
  have ran : ((pulse (sample .returning)).run GuardsToken {} failedOnce).any (fun state =>
      metricsThroughput ascii quoted state.db 0 ['1', 'h'] 400 =
        .ok (.minute, [⟨0, 1, 1⟩])) = true := by
    decide +kernel
  have hour : parseWindow ascii quoted ['1', 'h'] = .ok (3600, .minute) := by
    decide +kernel
  have none : metricsThroughput ascii quoted ({} : System).db 0 ['1', 'h'] 400 =
      .ok (.minute, []) := by
    decide +kernel
  have half : successRate 1 1 = some (1 / 2) := by
    decide +kernel
  have zero : successRate 0 1 = some 0 := by
    decide +kernel
  obtain ⟨state, reachable, passes⟩ := Machine.reachable_of_check (by exact rfl) failedOnce ran
  have answered := of_decide_eq_true passes
  have empty := @Machine.Reachable.start _ _ (pulse (sample .returning)) GuardsToken {} rfl
  obtain ⟨figures, depths⟩ := @figures_agree _ state ascii quoted 0 400 _ reachable
  obtain ⟨delta, parsed, _, _, _, _, _, total, overview⟩ := figures _ _ _ answered
  obtain rfl : 3600 = delta := (Prod.mk.inj (Except.ok.inj (hour.symm.trans parsed))).1
  refine ⟨state, reachable, answered, total.symm, ?_, ?_, ?_⟩
  · exact ((overview (splitReads state.db state.db) _ _).2 rfl rfl state _ reachable rfl
      answered).trans half
  · obtain ⟨delta, parsed, _, _, _, _, _, _, overview⟩ :=
      (@figures_agree _ {} ascii quoted 0 400 _ empty).1 _ _ _ none
    obtain rfl : 3600 = delta := (Prod.mk.inj (Except.ok.inj (hour.symm.trans parsed))).1
    exact ((overview (splitReads {} state.db) _ _).2 rfl rfl state _ reachable rfl
      answered).trans zero
  · refine (depths state _ reachable (List.Perm.refl _) state.db).2.1 ?_ _ _ _ rfl
    intro queue present own
    exact List.mem_map_of_mem (List.mem_filter.mpr ⟨present, decide_eq_true own⟩)

end Runs
end Metrics
end Pulse
