import Pulse.Runtime.Wait

/-! The slots of a worker: its counter, its semaphore and its task set agree at every suspension,
and a claim never brings more jobs than there are slots. -/
namespace Pulse.Runtime
open Library.Lts

/-- How many completion callbacks have run. -/
def callbacksRun : WorkerProcess → Event → Nat → Nat
  | _, .act (.callback _), count => count + 1
  | _, _, count => count

/-- The process, and beside it how many callbacks have run. -/
def counted (concurrency : Nat) : Machine (WorkerProcess × Nat) Event :=
  (processOf concurrency).recorded (· = 0) callbacksRun

/-- The claim which `poll_loop` is in finds a slot for each of its jobs. -/
def Poll.Fits (sem : Nat) : Poll → Prop
  | .claiming free _ => free ≤ sem
  | .claimed jobs _ => jobs.length ≤ sem
  | .acquiring .. => False
  | .starting | .sleeping | .ended => True

/-- The tasks whose callback has not run are those which are counted and hold the semaphore. -/
structure Accounted (concurrency count : Nat) (process : WorkerProcess) : Prop where
  limit : process.runtime.concurrency = concurrency
  running : process.runtime.running = process.runtime.tasks.length
  sem : process.runtime.sem + process.runtime.tasks.length = concurrency
  submitted : process.nextTask = count + process.runtime.tasks.length
  distinct : (process.runtime.tasks.map JobTask.id).Nodup
  issued : ∀ task ∈ process.runtime.tasks, task.id < process.nextTask

/-- What holds at every suspension. -/
structure Slotted (concurrency count : Nat) (process : WorkerProcess) : Prop
    extends Accounted concurrency count process where
  fits : process.poll.Fits process.runtime.sem

/-- The counter is the number of tasks which were submitted and have not been called back, and the
semaphore has the rest of the slots; `poll_loop` does not wait for it. -/
structure SlotsKept (concurrency : Nat) (process : WorkerProcess) (count : Nat) : Prop where
  counted : process.runtime.running = process.nextTask - count
  sem : process.runtime.running = concurrency - process.runtime.sem
  bounded : 0 ≤ process.runtime.running ∧ process.runtime.running ≤ concurrency
  atOnce : ∀ granted jobId jobs rest, process.poll ≠ .acquiring granted jobId jobs rest

section Steps
variable {concurrency count : Nat} {process next : WorkerProcess} {event : Event} {action : Step}
  {queues jobs rest : List Uuid}

theorem Accounted.freeSlots (accounted : Accounted concurrency count process) :
    process.runtime.freeSlots = process.runtime.sem := by
  have running := accounted.running
  have sem := accounted.sem
  rw [WorkerRuntime.freeSlots, accounted.limit]
  omega

/-- The poll loop moves on, and nothing else changes. -/
theorem Accounted.move (accounted : Accounted concurrency count process) {poll : Poll}
    (fits : poll.Fits process.runtime.sem) : Slotted concurrency count { process with poll } :=
  { accounted with fits }

/-- `claim_jobs` is asked for the free slots. -/
theorem Accounted.visit (accounted : Accounted concurrency count process) :
    Slotted concurrency count (process.visit queues) := by
  unfold WorkerProcess.visit
  split
  · exact accounted.move trivial
  · split
    · exact accounted.move trivial
    · split
      · exact accounted.move trivial
      · exact accounted.move (le_of_eq accounted.freeSlots)

theorem Accounted.iterate (accounted : Accounted concurrency count process) :
    Slotted concurrency count process.iterate := by
  unfold WorkerProcess.iterate
  split
  · exact accounted.move trivial
  · exact accounted.visit

/-- A task starts on a free slot. -/
theorem Accounted.start (accounted : Accounted concurrency count process) (jobId : Uuid)
    (free : 0 < process.runtime.sem) :
    Accounted concurrency count (process.acquire.start jobId) := by
  have running := accounted.running
  have sem := accounted.sem
  have submitted := accounted.submitted
  refine ⟨accounted.limit, ?_, ?_, ?_, ?_, ?_⟩
  · change process.runtime.running + 1 = ((process.runtime.tasks.length + 1 : Nat) : Int)
    omega
  · change process.runtime.sem - 1 + (process.runtime.tasks.length + 1) = concurrency
    omega
  · change process.nextTask + 1 = count + (process.runtime.tasks.length + 1)
    omega
  · refine List.nodup_cons.mpr ⟨?_, accounted.distinct⟩
    intro listed
    obtain ⟨task, member, same⟩ := List.mem_map.mp listed
    exact absurd (accounted.issued task member) (by rw [same]; exact Nat.lt_irrefl _)
  · intro task member
    change task.id < process.nextTask + 1
    rcases List.mem_cons.mp member with rfl | old
    · exact Nat.lt_succ_self _
    · exact Nat.lt_succ_of_lt (accounted.issued task old)

/-- Where there are as many slots as jobs, every `submit` goes through at once. -/
theorem Accounted.submitAll (accounted : Accounted concurrency count process)
    (room : jobs.length ≤ process.runtime.sem) :
    Slotted concurrency count (process.submitAll rest jobs) := by
  induction jobs generalizing process with
  | nil => exact accounted.visit
  | cons jobId jobs ih =>
    rw [List.length_cons] at room
    have free : 0 < process.runtime.sem := by omega
    rw [WorkerProcess.submitAll, if_neg (Nat.pos_iff_ne_zero.mp free)]
    refine ih (accounted.start jobId free) ?_
    change jobs.length ≤ process.runtime.sem - 1
    omega

/-- A task ends, and stays counted. -/
theorem Slotted.finish (slotted : Slotted concurrency count process) (id : Nat) :
    Slotted concurrency count (process.finish id) := by
  have ids : (process.finish id).runtime.tasks.map JobTask.id =
      process.runtime.tasks.map JobTask.id := by
    rw [WorkerProcess.finish, List.map_map]
    apply List.map_congr_left
    intro task _
    simp only [Function.comp]
    split <;> rfl
  have many : (process.finish id).runtime.tasks.length = process.runtime.tasks.length :=
    List.length_map _
  refine ⟨⟨slotted.limit, ?_, ?_, ?_, ?_, ?_⟩, slotted.fits⟩
  · rw [many]
    exact slotted.running
  · rw [many]
    exact slotted.sem
  · rw [many]
    exact slotted.submitted
  · rw [ids]
    exact slotted.distinct
  · intro task member
    have listed : task.id ∈ process.runtime.tasks.map JobTask.id := by
      rw [← ids]
      exact List.mem_map_of_mem member
    obtain ⟨old, before, same⟩ := List.mem_map.mp listed
    rw [← same]
    exact slotted.issued old before

/-- One of the tasks has the id. -/
theorem length_discard {tasks : List JobTask} (distinct : (tasks.map JobTask.id).Nodup)
    {task : JobTask} (member : task ∈ tasks) :
    (tasks.filter fun other => other.id ≠ task.id).length + 1 = tasks.length := by
  have once : tasks.countP (fun other => other.id = task.id) = 1 := by
    have counted := List.count_eq_one_of_mem distinct (List.mem_map_of_mem member)
    rw [List.count, List.countP_map] at counted
    rw [← counted]
    apply List.countP_congr
    intro other _
    simp
  have rest : tasks.countP (fun other => ¬ decide (other.id = task.id) = true) =
      (tasks.filter fun other => other.id ≠ task.id).length := by
    rw [List.countP_eq_length_filter]
    congr 1
    apply List.filter_congr
    intro other _
    simp
  have split :=
    List.length_eq_countP_add_countP (fun other => decide (other.id = task.id)) (l := tasks)
  omega

/-- The callback of one task takes that task out and gives its slot back. -/
theorem Slotted.callback (slotted : Slotted concurrency count process) {task : JobTask}
    (member : task ∈ process.runtime.tasks) :
    Slotted concurrency (count + 1) (process.onDone task.id) := by
  have fits := slotted.fits
  have fewer := length_discard slotted.distinct member
  have running := slotted.running
  have sem := slotted.sem
  have submitted := slotted.submitted
  have kept : (process.runtime.tasks.filter fun other => other.id ≠ task.id).Sublist
      process.runtime.tasks := List.filter_sublist
  unfold WorkerProcess.onDone
  dsimp only
  split
  · rename_i acquiring
    rw [acquiring] at fits
    exact fits.elim
  · refine ⟨⟨slotted.limit, ?_, ?_, ?_, ?_, ?_⟩, ?_⟩ <;> dsimp only
    · omega
    · omega
    · omega
    · exact slotted.distinct.sublist (kept.map JobTask.id)
    · exact fun other listed => slotted.issued other (kept.subset listed)
    · cases poll : process.poll <;> rw [poll] at fits
      case claiming free rest => exact fits.trans (Int.ofNat_le.mpr (Nat.le_succ _))
      case claimed jobs rest => exact Nat.le_succ_of_le fits
      case acquiring => exact fits
      all_goals trivial

theorem Slotted.perform (slotted : Slotted concurrency count process)
    (taken : perform process event = some next) :
    Slotted concurrency (callbacksRun process event count) next := by
  cases perform_performed taken with
  | cancel =>
    have fits := slotted.fits
    unfold WorkerProcess.cancelPoll
    split
    · rename_i acquiring
      rw [acquiring] at fits
      exact fits.elim
    · exact slotted.toAccounted.move trivial
  | act advanced =>
    have fits := slotted.fits
    cases advanced with
    | begin => exact slotted.toAccounted.iterate
    | @claim free jobs rest claiming within =>
      rw [claiming] at fits
      exact slotted.toAccounted.move (Int.ofNat_le.mp (within.trans fits))
    | fail | lose => exact slotted.toAccounted.move trivial
    | @submit jobs rest returned claimed once among =>
      rw [claimed] at fits
      have fewer : returned.length ≤ jobs.length := once.length_le_of_subset among
      exact slotted.toAccounted.submitAll (fewer.trans fits)
    | resume acquiring =>
      rw [acquiring] at fits
      exact fits.elim
    | wake =>
      have cleared : Accounted concurrency count { process with wakeEvent := false } :=
        { slotted.toAccounted with }
      exact cleared.iterate
    | finish => exact slotted.finish _
    | callback member done => exact slotted.callback member
    | notify | refresh | stop | wait | idle | timeout | retire => exact { slotted with }

theorem Slotted.kept (slotted : Slotted concurrency count process) :
    SlotsKept concurrency process count := by
  have running := slotted.running
  have sem := slotted.sem
  have submitted := slotted.submitted
  refine ⟨by omega, by omega, ⟨by omega, by omega⟩, ?_⟩
  intro granted jobId jobs rest acquiring
  have fits := slotted.fits
  rw [acquiring] at fits
  exact fits

end Steps

/-- For every concurrency and every interleaving of the poll loop with its job tasks, however they
end: the counter, the semaphore and the callbacks agree, and no submit waits. -/
theorem slots_kept {concurrency : Nat} {state : WorkerProcess × Nat}
    (reachable : (counted concurrency).Reachable anyStep state) :
    SlotsKept concurrency state.1 state.2 := by
  have slotted : Slotted concurrency state.2 state.1 := by
    refine @Machine.Reachable.invariant _ _ (counted concurrency) anyStep
      (fun state => Slotted concurrency state.2 state.1) ?_ ?_ state reachable
    · rintro ⟨process, count⟩ ⟨⟨queueIds, rfl⟩, rfl⟩
      refine ⟨⟨rfl, rfl, rfl, rfl, List.nodup_nil, ?_⟩, trivial⟩
      intro task member
      cases member
    · intro state event next slotted _ taken
      obtain ⟨performed, noted⟩ := Machine.recorded_step taken
      rw [noted]
      exact slotted.perform performed
  exact slotted.kept

/-- Two slots: three jobs are queued, two are claimed, one is cancelled and called back, and the
third is claimed. -/
def threeJobs : List Event := [
  .act (.refresh [7]), .act .begin, .act (.claim [1, 2]), .act (.submit [1, 2]), .act (.finish 0),
  .act .wake, .act (.callback 0), .act .notify, .act .wake, .act (.claim [3]), .act (.submit [3])]

theorem slots_kept_threeJobs : ∃ state, (counted 2).Reachable anyStep state ∧
    state.1.runtime.running = 2 ∧ SlotsKept 2 state.1 state.2 := by
  have ran : ((counted 2).run anyStep ({ runtime := { concurrency := 2 } }, 0) threeJobs).any
      (fun state => state.1.runtime.running = 2) = true := by
    decide +kernel
  obtain ⟨state, reachable, two⟩ :=
    Machine.reachable_of_check (by exact ⟨⟨[], rfl⟩, rfl⟩) threeJobs ran
  exact ⟨state, reachable, of_decide_eq_true two, slots_kept reachable⟩

end Pulse.Runtime
