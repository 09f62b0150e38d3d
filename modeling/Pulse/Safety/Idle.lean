import Pulse.Runtime.Loop

/-! What a worker still holds when its drain is over: `wait_for_idle` looks at the tasks which
it finds, while `poll_loop` may be suspended in the middle of a claim. -/
namespace Pulse.Runtime
open Library.Lts

/-- The job tasks which have not ended. -/
def WorkerProcess.unfinished (process : WorkerProcess) : List JobTask :=
  process.runtime.tasks.filter fun task => !task.done

/-- The claimed jobs which are still to be submitted. -/
def Poll.held : Poll → List Uuid
  | .claimed jobs _ => jobs
  | .acquiring _ jobId jobs _ => jobId :: jobs
  | _ => []

/-- `shutdown` has got past `wait_for_idle` before the grace period had elapsed. -/
def Shutdown.drained : Shutdown → Bool
  | .retiring inTime | .ended inTime => inTime
  | _ => false

/-- A drained worker has no unfinished task and no claimed job to be submitted. -/
def Complete (process : WorkerProcess) : Prop :=
  process.shutdown.drained = true → process.unfinished = [] ∧ process.poll.held = []

instance (process : WorkerProcess) : Decidable (Complete process) :=
  inferInstanceAs (Decidable (_ → _ ∧ _))

/-- No claim is under way and no claimed job is left. -/
def Poll.settled : Poll → Bool
  | .claiming _ _ => false
  | poll => poll.held = []

/-- `wait_for_idle` is called only where the poll loop is not in the middle of a claim. -/
def Settled (process : WorkerProcess) : Step → Prop
  | .wait => process.poll.settled = true
  | _ => True

instance (process : WorkerProcess) : (action : Step) → Decidable (Settled process action)
  | .wait => inferInstanceAs (Decidable (_ = _))
  | .begin | .claim _ | .fail | .submit _ | .lose | .resume | .wake | .notify | .refresh _
  | .finish _ | .callback _ | .stop | .idle | .timeout | .retire => isTrue trivial

/-- `shutdown` is past the draining status, and the grace period has not elapsed. -/
def Shutdown.awaits : Shutdown → Bool
  | .waiting _ => true
  | shutdown => shutdown.drained

/-- The tasks which the drain is still waiting for are those which have not ended. -/
structure Quiet (process : WorkerProcess) : Prop where
  settled : process.shutdown.awaits = true → process.poll.settled = true
  waited : ∀ tasks, process.shutdown = .waiting tasks →
    ∀ task ∈ process.runtime.tasks, task.done = false → task.id ∈ tasks
  ended : process.shutdown.drained = true → ∀ task ∈ process.runtime.tasks, task.done = true

section Steps
variable {process next : WorkerProcess} {action : Step} {jobs rest queues : List Uuid}

theorem Quiet.complete (quiet : Quiet process) : Complete process := by
  intro drained
  constructor
  · apply List.filter_eq_nil_iff.mpr
    intro task member
    simp [quiet.ended drained task member]
  · have settled : process.poll.settled = true := by
      apply quiet.settled
      cases stage : process.shutdown <;> rw [stage] at drained
      case retiring | ended => exact drained
      all_goals cases drained
    cases poll : process.poll <;> rw [poll] at settled
    case claiming => cases settled
    all_goals exact of_decide_eq_true settled

/-- A shutting down worker claims nothing more. -/
theorem visit_settled (stopping : process.shuttingDown = true) :
    process.visit queues = { process with poll := .sleeping } := by
  unfold WorkerProcess.visit
  cases queues with
  | nil => rfl
  | cons => exact if_pos stopping

theorem iterate_settled (stopping : process.shuttingDown = true) :
    process.iterate = { process with poll := .ended } := by
  rw [WorkerProcess.iterate, if_pos stopping]

theorem awaits_of_drained {shutdown : Shutdown} (drained : shutdown.drained = true) :
    shutdown.awaits = true := by
  cases shutdown with
  | retiring | ended => exact drained
  | _ => cases drained

theorem stopping_of_awaits (awaits : process.shutdown.awaits = true) :
    process.shuttingDown = true := by
  apply decide_eq_true
  intro uncalled
  rw [uncalled] at awaits
  cases awaits

/-- Before `wait_for_idle`, and once the grace period has elapsed, nothing is promised. -/
theorem Quiet.of_unawaited (before : process.shutdown.awaits = false) : Quiet process := by
  refine ⟨?_, ?_, ?_⟩
  · intro awaits
    rw [before] at awaits
    cases awaits
  · intro tasks waiting
    rw [waiting] at before
    cases before
  · intro drained
    rw [awaits_of_drained drained] at before
    cases before

/-- A step which leaves the shutdown, starts no task and has none run again. -/
theorem Quiet.tasks (quiet : Quiet process) (shutdown : next.shutdown = process.shutdown)
    (kept : ∀ task ∈ next.runtime.tasks, ∃ old ∈ process.runtime.tasks,
      old.id = task.id ∧ (old.done = true → task.done = true))
    (settled : process.shutdown.awaits = true → next.poll.settled = true) : Quiet next := by
  refine ⟨?_, ?_, ?_⟩
  · rw [shutdown]
    exact settled
  · rw [shutdown]
    intro tasks waiting task listed unfinished
    obtain ⟨old, before, same, done⟩ := kept task listed
    rw [← same]
    refine quiet.waited tasks waiting old before ?_
    by_contra ended
    rw [done (by simpa using ended)] at unfinished
    cases unfinished
  · rw [shutdown]
    intro drained task listed
    obtain ⟨old, before, _, done⟩ := kept task listed
    exact done (quiet.ended drained old before)

/-- A step which leaves the shutdown and the tasks. -/
theorem Quiet.poll (quiet : Quiet process) (shutdown : next.shutdown = process.shutdown)
    (tasks : next.runtime.tasks = process.runtime.tasks)
    (settled : process.shutdown.awaits = true → next.poll.settled = true) : Quiet next :=
  quiet.tasks shutdown (fun task listed => ⟨task, tasks ▸ listed, rfl, id⟩) settled

/-- The loop ends at its next iteration. -/
theorem Quiet.iterate (quiet : Quiet process) : Quiet process.iterate := by
  by_cases stopping : process.shuttingDown = true
  · rw [iterate_settled stopping]
    exact quiet.poll rfl rfl fun _ => rfl
  · apply Quiet.of_unawaited
    rw [iterate_shutdown]
    by_contra awaits
    exact stopping (stopping_of_awaits (by simpa using awaits))

/-- A step of a poll loop which is in the middle of a claim. -/
theorem Quiet.of_unsettled (quiet : Quiet process) (claims : process.poll.settled = false)
    (shutdown : next.shutdown = process.shutdown) : Quiet next := by
  apply Quiet.of_unawaited
  rw [shutdown]
  by_contra awaits
  have settled := quiet.settled (by simpa using awaits)
  rw [claims] at settled
  cases settled

/-- A drained worker has nothing left to submit. -/
theorem Quiet.submits {returned : List Uuid} (quiet : Quiet process)
    (claimed : process.poll = .claimed jobs rest) (among : returned ⊆ jobs) :
    Quiet (process.submitAll rest returned) := by
  by_cases awaits : process.shutdown.awaits = true
  · have none : jobs = [] := by
      have settled := quiet.settled awaits
      rw [claimed] at settled
      exact of_decide_eq_true settled
    have nothing : returned = [] := List.subset_nil.mp (none ▸ among)
    have asleep : process.submitAll rest [] = { process with poll := .sleeping } :=
      visit_settled (stopping_of_awaits awaits)
    rw [nothing, asleep]
    exact quiet.poll rfl rfl fun _ => rfl
  · apply Quiet.of_unawaited
    rw [submitAll_shutdown]
    simpa using awaits

/-- A handler returns. -/
theorem Quiet.finishes (quiet : Quiet process) (taskId : Nat) : Quiet (process.finish taskId) := by
  refine quiet.tasks rfl ?_ quiet.settled
  intro task listed
  obtain ⟨old, before, rfl⟩ := List.mem_map.mp listed
  refine ⟨old, before, ?_⟩
  split
  · exact ⟨rfl, fun _ => rfl⟩
  · exact ⟨rfl, id⟩

/-- A task leaves the runtime. -/
theorem Quiet.leaves (quiet : Quiet process) (taskId : Nat) : Quiet (process.onDone taskId) := by
  by_cases claims : process.poll.settled = true
  · have tasks : (process.onDone taskId).runtime.tasks ⊆ process.runtime.tasks := by
      unfold WorkerProcess.onDone
      dsimp only
      split <;> exact (List.filter_sublist).subset
    have poll : (process.onDone taskId).poll = process.poll := by
      unfold WorkerProcess.onDone
      dsimp only
      split
      · rename_i acquiring
        rw [acquiring] at claims
        cases claims
      · rfl
    refine quiet.tasks (onDone_shutdown taskId)
      (fun task listed => ⟨task, tasks listed, rfl, id⟩) fun _ => ?_
    rw [poll]
    exact claims
  · exact quiet.of_unsettled (by simpa using claims) (onDone_shutdown taskId)

/-- `wait_for_idle` waits for every task which it finds. -/
theorem Quiet.waits (settled : process.poll.settled = true) :
    Quiet { process with shutdown := process.waitForIdle } := by
  refine ⟨fun _ => settled, ?_, ?_⟩
  · intro tasks waiting task listed _
    simp only [WorkerProcess.waitForIdle] at waiting
    split at waiting
    · cases waiting
    · cases waiting
      exact List.mem_map_of_mem listed
  · intro drained task listed
    simp only [WorkerProcess.waitForIdle] at drained
    split at drained
    · rename_i none
      simp [none] at listed
    · cases drained

theorem Quiet.step (quiet : Quiet process) (settled : Settled process action)
    (taken : step process action = some next) : Quiet next := by
  obtain ⟨_, advanced⟩ := step_advanced taken
  cases advanced with
  | begin => exact quiet.iterate
  | claim claiming => exact quiet.of_unsettled (by rw [claiming]; rfl) rfl
  | fail claiming => exact quiet.of_unsettled (by rw [claiming]; rfl) rfl
  | submit claimed once among => exact quiet.submits claimed among
  | lose => exact quiet.poll rfl rfl fun _ => rfl
  | @resume jobId jobs rest acquiring =>
    exact quiet.of_unsettled (by rw [acquiring]; rfl) (submitAll_shutdown rest jobs)
  | wake sleeping =>
    have cleared : Quiet { process with wakeEvent := false } :=
      quiet.poll rfl rfl quiet.settled
    exact cleared.iterate
  | notify | refresh => exact quiet.poll rfl rfl quiet.settled
  | finish => exact quiet.finishes _
  | callback => exact quiet.leaves _
  | stop => exact .of_unawaited rfl
  | wait => exact .waits settled
  | @idle tasks waiting done =>
    refine ⟨?_, ?_, ?_⟩
    · intro _
      exact quiet.settled (by rw [waiting]; rfl)
    · intro _ waits
      cases waits
    · intro _ task listed
      by_contra unfinished
      exact unfinished (done task listed
        (quiet.waited tasks waiting task listed (by simpa using unfinished)))
  | timeout => exact .of_unawaited rfl
  | @retire inTime retiring =>
    have same : inTime = true → process.shutdown.drained = true := by
      rw [retiring]
      exact id
    refine ⟨fun awaits => quiet.settled (awaits_of_drained (same awaits)), ?_,
      fun drained => quiet.ended (same drained)⟩
    intro _ waits
    cases waits

end Steps

/-! A claim which is under way when `wait_for_idle` is called shows. -/

section Exposure
variable {process next origin : WorkerProcess} {action : Step}

/-- `claim_jobs` is called for free slots only. -/
def Asks (process : WorkerProcess) : Prop :=
  ∀ free rest, process.poll = .claiming free rest → 0 < free

theorem Asks.visit (process : WorkerProcess) (queues : List Uuid) : Asks (process.visit queues) := by
  intro free rest claiming
  unfold WorkerProcess.visit at claiming
  split at claiming
  · cases claiming
  · split at claiming
    · cases claiming
    · split at claiming
      · cases claiming
      · rename_i some_free
        cases claiming
        omega

theorem Asks.submitAll (process : WorkerProcess) (rest jobs : List Uuid) :
    Asks (process.submitAll rest jobs) := by
  induction jobs generalizing process with
  | nil => exact Asks.visit process rest
  | cons jobId jobs ih =>
    unfold WorkerProcess.submitAll
    split
    · intro free queues claiming
      cases claiming
    · exact ih _

theorem Asks.iterate (process : WorkerProcess) : Asks process.iterate := by
  unfold WorkerProcess.iterate
  split
  · intro free rest claiming
    cases claiming
  · exact Asks.visit process _

theorem Asks.step (asks : Asks process) (taken : step process action = some next) : Asks next := by
  obtain ⟨_, advanced⟩ := step_advanced taken
  cases advanced with
  | begin | wake => exact Asks.iterate _
  | submit | resume => exact Asks.submitAll _ _ _
  | claim | fail | lose =>
    intro free rest claiming
    cases claiming
  | notify | refresh | finish | stop | wait | idle | timeout | retire => exact asks
  | @callback ended member done =>
    unfold WorkerProcess.onDone
    dsimp only
    split
    · intro free rest claiming
      cases claiming
    · exact asks

theorem reachable_asks (reachable : worker.Reachable anyStep process) : Asks process := by
  refine reachable.invariant (fun process initial => ?_) fun _ _ _ asks _ taken => asks.step taken
  obtain ⟨concurrency, queueIds, rfl⟩ := initial
  intro free rest claiming
  cases claiming

/-- The handlers of all tasks may return. -/
theorem all_finish (path : worker.Path anyStep origin process)
    (runs : process.shutdown.hasReturned = false) : ∃ later, worker.Path anyStep origin later ∧
      later.poll = process.poll ∧ later.shutdown = process.shutdown ∧
      ∀ task ∈ later.runtime.tasks, task.done = true := by
  generalize left : process.unfinished.length = count
  induction count using Nat.strong_induction_on generalizing process with
  | h count ih =>
    by_cases finished : ∀ task ∈ process.runtime.tasks, task.done = true
    · exact ⟨process, path, rfl, rfl, finished⟩
    · have exists_running : ∃ task ∈ process.runtime.tasks, task.done = false := by
        simpa using finished
      obtain ⟨task, member, running⟩ := exists_running
      have taken : worker.step process (.finish task.id) = some (process.finish task.id) := by
        have present : (process.runtime.tasks.any fun other => other.id = task.id && !other.done) =
            true := List.any_eq_true.mpr ⟨task, member, by simp [running]⟩
        simp only [worker, step, runs, Bool.false_eq_true, if_false, advance, present, if_true]
      have moved : worker.Path anyStep origin (process.finish task.id) := .step path trivial taken
      have others : (process.finish task.id).unfinished.length =
          (process.unfinished.filter fun other => other.id ≠ task.id).length := by
        simp only [WorkerProcess.unfinished, WorkerProcess.finish, List.filter_map, List.length_map,
          List.filter_filter]
        congr 1
        apply List.filter_congr
        intro other _
        by_cases same : other.id = task.id <;> simp [same]
      have fewer : (process.finish task.id).unfinished.length < count := by
        rw [others, ← left]
        exact List.length_filter_lt_length_iff_exists.mpr
          ⟨task, List.mem_filter.mpr ⟨member, by simp [running]⟩, by simp⟩
      obtain ⟨later, further, poll, shutdown, ended⟩ :=
        @ih _ fewer (process.finish task.id) moved runs rfl
      exact ⟨later, further, poll, shutdown, ended⟩

/-- Once all tasks have ended, the drain is complete. -/
theorem waits_end (taken : step process .wait = some next) : ∃ later, worker.Path anyStep next later ∧
      later.poll = process.poll ∧ later.shutdown = .retiring true := by
  obtain ⟨_, advanced⟩ := step_advanced taken
  cases advanced with
  | wait =>
    by_cases none : process.runtime.tasks = []
    · refine ⟨_, .refl, rfl, ?_⟩
      simp only [WorkerProcess.waitForIdle, none, if_true]
    · have waits : ({ process with shutdown := process.waitForIdle } : WorkerProcess).shutdown =
          .waiting (process.runtime.tasks.map JobTask.id) := by
        simp only [WorkerProcess.waitForIdle, none, if_false]
      obtain ⟨later, path, poll, shutdown, ended⟩ := all_finish .refl (by rw [waits]; rfl)
      have waiting := shutdown.trans waits
      have done : later.runtime.tasks.all (fun task =>
          task.id ∉ process.runtime.tasks.map JobTask.id || task.done) = true :=
        List.all_eq_true.mpr fun task member => by simp [ended task member]
      have idles : worker.step later .idle = some { later with shutdown := .retiring true } := by
        simp only [worker, step, waiting, Shutdown.hasReturned, Bool.false_eq_true, if_false, advance,
          done, if_true]
      exact ⟨_, .step path trivial idles, poll, rfl⟩

/-- A claim under way, or a job left, is there when the drain is complete. -/
theorem exposed (asks : Asks process) (unsettled : process.poll.settled = false)
    (taken : step process .wait = some next) :
    ∃ later, worker.Path anyStep next later ∧ ¬ Complete later := by
  obtain ⟨later, path, poll, shutdown⟩ := waits_end taken
  have complete : later.shutdown.drained = true := by
    rw [shutdown]
    rfl
  cases stage : process.poll with
  | claiming free rest =>
    -- the claim commits a job
    have room : (([0] : List Uuid).length : Int) ≤ free := by
      have some_free := asks free rest stage
      change (1 : Int) ≤ free
      omega
    have claims : worker.step later (.claim [0]) = some { later with poll := .claimed [0] rest } := by
      simp only [worker, step, shutdown, Shutdown.hasReturned, Bool.false_eq_true, if_false, advance,
        poll, stage, room, if_true]
    refine ⟨_, .step path trivial claims, fun claim => ?_⟩
    cases (claim complete).2
  | claimed jobs rest =>
    refine ⟨later, path, fun claim => ?_⟩
    rw [stage] at unsettled
    have held := (claim complete).2
    rw [poll, stage] at held
    exact absurd held (of_decide_eq_false unsettled)
  | acquiring granted jobId jobs rest =>
    refine ⟨later, path, fun claim => ?_⟩
    have held := (claim complete).2
    rw [poll, stage] at held
    cases held
  | starting | sleeping | ended =>
    rw [stage] at unsettled
    cases unsettled

end Exposure

/-- For every interleaving: as long as `wait_for_idle` is called while the poll loop is not in
the middle of a claim, a worker which has drained within the grace period holds no job from then
on; where it is called in the middle of a claim, the drain may be declared complete all the
same. -/
theorem drain_complete (process : WorkerProcess) :
    (worker.Reachable Settled process → Complete process) ∧
    ∀ next, worker.Reachable anyStep process → worker.step process .wait = some next →
      ¬ Settled process .wait → ∃ later, worker.Path anyStep next later ∧ ¬ Complete later := by
  constructor
  · intro reachable
    have quiet : Quiet process := by
      refine reachable.invariant (fun process initial => ?_)
        fun _ _ _ quiet settled taken => quiet.step settled taken
      obtain ⟨concurrency, queueIds, rfl⟩ := initial
      exact .of_unawaited rfl
    exact quiet.complete
  · intro next reachable taken unsettled
    exact exposed (reachable_asks reachable) (by simpa [Settled] using unsettled) taken

/-- A worker which is stopped while it sleeps, with one task. -/
def drainedAsleep : List Step := [
  .refresh [7], .begin, .claim [8], .submit [8], .stop, .wait, .finish 0, .callback 0, .idle, .wake]

/-- A worker which is stopped while its claim commits. -/
def drainedClaiming : List Step := [.refresh [7], .begin, .stop, .wait, .claim [8]]

theorem drain_complete_asleep : ∃ process, worker.Reachable Settled process ∧
    process.shutdown = .retiring true ∧ Complete process := by
  have ran : (worker.run Settled { runtime := { concurrency := 1 } } drainedAsleep).any
      (fun process => process.shutdown = .retiring true) = true := by
    decide +kernel
  obtain ⟨process, reachable, retiring⟩ :=
    Machine.reachable_of_check (by exact ⟨1, [], rfl⟩) drainedAsleep ran
  exact ⟨process, reachable, by simpa using retiring, (drain_complete process).1 reachable⟩

/-- The drain is over at once, and the claimed job is started after it. -/
theorem drain_incomplete : ∃ process, worker.Reachable anyStep process ∧
    process.shutdown = .retiring true ∧ process.poll.held = [8] ∧ ¬ Complete process := by
  have ran : (worker.run anyStep { runtime := { concurrency := 1 } } drainedClaiming).any
      (fun process => process.shutdown = .retiring true ∧ process.poll.held = [8]) = true := by
    decide +kernel
  obtain ⟨process, reachable, shown⟩ :=
    Machine.reachable_of_check (by exact ⟨1, [], rfl⟩) drainedClaiming ran
  obtain ⟨retiring, held⟩ := of_decide_eq_true shown
  refine ⟨process, reachable, retiring, held, fun complete => ?_⟩
  have nothing := (complete (by rw [retiring]; rfl)).2
  rw [held] at nothing
  cases nothing

end Pulse.Runtime
