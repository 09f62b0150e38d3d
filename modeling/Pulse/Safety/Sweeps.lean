import Pulse.Engine.Reaper
import Pulse.System.Step

/-! What a sweep of the reaper leaves behind when no row is locked by others. -/
namespace Pulse
open Library.RowLock Library.Lts

/-- Dead already, or without a heartbeat since the cutoff. -/
def Worker.gone (cutoff : Time) (worker : Worker) : Prop :=
  worker.status = .dead ∨ (∃ beat, worker.lastHeartbeatAt = some beat ∧ beat < cutoff) ∨
    (worker.lastHeartbeatAt = none ∧ worker.registeredAt < cutoff)

instance Worker.decidableGone (cutoff : Time) (worker : Worker) : Decidable (worker.gone cutoff) :=
  decidable_of_iff (worker.status = .dead ∨
      (worker.lastHeartbeatAt.any (· < cutoff) = true) ∨
      (worker.lastHeartbeatAt = none ∧ worker.registeredAt < cutoff)) (by
    simp [Worker.gone, Option.any_eq_true])

/-- In flight under a worker which is gone. -/
def Db.Orphan (db : Db) (cutoff : Time) (record : JobRecord) : Prop :=
  record.job.status.inFlight = true ∧
    ∃ worker ∈ db.workers, record.job.workerId = some worker.id ∧ worker.gone cutoff

/-- A running execution is closed. -/
def JobExecution.lost (now : Time) (execution : JobExecution) : JobExecution :=
  if execution.status = .running then
    { execution with
      status := .failed, finishedAt := some now, errorType := some WORKER_LOST_ERROR,
      errorMessage := some workerLostMessage }
  else execution

/-- What the sweep does to one job. -/
structure SweptJob (db : Db) (cutoff now : Time) (before after : JobRecord) : Prop where
  spared : ¬ db.Orphan cutoff before → after = before
  claimed : db.Orphan cutoff before → before.job.status = .claimed → after = { before with
    job := { before.job with
      status := .queued, workerId := none, lockToken := none, claimedAt := none } }
  requeued : db.Orphan cutoff before → before.job.status = .running →
    before.job.attempts + 1 < before.job.maxAttempts → after = { before with
      job := { before.job with
        status := .queued, attempts := before.job.attempts + 1
        workerId := none, lockToken := none, claimedAt := none }
      executions := before.executions.map (JobExecution.lost now) }
  buried : db.Orphan cutoff before → before.job.status = .running →
    before.job.maxAttempts ≤ before.job.attempts + 1 →
      ∃ entry, entry.replayedAt = none ∧ entry.totalAttempts = before.job.attempts + 1 ∧
        after = { before with
          job := { before.job with
            status := .dead, attempts := before.job.attempts + 1, finishedAt := some now
            workerId := none, lockToken := none }
          executions := before.executions.map (JobExecution.lost now)
          deadLetters := before.deadLetters ++ [entry] }

/-- What the whole sweep does. -/
structure Swept (before after : Db) (cutoff now : Time) (stats : ReapStats) : Prop where
  workers : List.Forall₂ (fun old new : Worker =>
    new = if old.gone cutoff then { old with status := .dead } else old) before.workers after.workers
  jobs : List.Forall₂ (SweptJob before cutoff now) before.jobs after.jobs
  others : after = { before with workers := after.workers, jobs := after.jobs }
  recovered : ∀ record ∈ after.jobs, record.job.status.inFlight = true →
    ∀ worker ∈ after.workers, record.job.workerId = some worker.id → worker.status ≠ .dead
  workersReaped : stats.workersReaped = converted before.workers after.workers fun old new =>
    old.status ≠ .dead && new.status = .dead
  jobsRequeued : stats.jobsRequeued = converted before.jobs after.jobs fun old new =>
    old.job.status.inFlight && new.job.status = .queued
  jobsDead : stats.jobsDead = converted before.jobs after.jobs fun old new =>
    old.job.status.inFlight && new.job.status = .dead

section Sweep
variable {db : Db} {cutoff now : Time} {draw : Uuid → Uuid} {record : JobRecord}

/-- The workers which the two queries find. -/
def Db.lost (db : Db) (cutoff : Time) : List Uuid :=
  (db.workers.filter (Worker.stale cutoff) ++ db.workers.filter (Worker.neverHeartbeat cutoff)).map
    Worker.id

/-- The first pass. -/
def Db.marked (db : Db) (cutoff : Time) : Db :=
  { db with workers := db.workers.map (markDead (db.lost cutoff)) }

theorem gone_iff {worker : Worker} : worker.gone cutoff ↔
    worker.status = .dead ∨ worker.stale cutoff = true ∨ worker.neverHeartbeat cutoff = true := by
  unfold Worker.gone Worker.stale Worker.neverHeartbeat
  by_cases dead : worker.status = .dead
  · simp [dead]
  · cases beat : worker.lastHeartbeatAt <;> simp [dead]

theorem mem_lost (distinct : (db.workers.map Worker.id).Nodup) {worker : Worker}
    (member : worker ∈ db.workers) :
    worker.id ∈ db.lost cutoff ↔ worker.stale cutoff = true ∨ worker.neverHeartbeat cutoff = true := by
  unfold Db.lost
  rw [List.map_append, List.mem_append]
  constructor
  · intro found
    rcases found with found | found
    · obtain ⟨other, kept, same⟩ := List.mem_map.mp found
      obtain ⟨present, stale⟩ := List.mem_filter.mp kept
      rw [List.inj_on_of_nodup_map distinct present member same] at stale
      exact .inl stale
    · obtain ⟨other, kept, same⟩ := List.mem_map.mp found
      obtain ⟨present, silent⟩ := List.mem_filter.mp kept
      rw [List.inj_on_of_nodup_map distinct present member same] at silent
      exact .inr silent
  · rintro (stale | silent)
    · exact .inl (List.mem_map.mpr ⟨worker, List.mem_filter.mpr ⟨member, stale⟩, rfl⟩)
    · exact .inr (List.mem_map.mpr ⟨worker, List.mem_filter.mpr ⟨member, silent⟩, rfl⟩)

/-- The first pass leaves exactly the workers dead which are gone. -/
theorem markDead_eq (distinct : (db.workers.map Worker.id).Nodup) {worker : Worker}
    (member : worker ∈ db.workers) : markDead (db.lost cutoff) worker =
      if worker.gone cutoff then { worker with status := .dead } else worker := by
  unfold markDead
  by_cases found : worker.id ∈ db.lost cutoff
  · rw [if_pos found, if_pos (gone_iff.mpr (.inr ((mem_lost distinct member).mp found)))]
  · rw [if_neg found]
    split
    · rename_i gone
      have dead := (gone_iff.mp gone).resolve_right fun either => found ((mem_lost distinct member).mpr either)
      cases worker
      cases dead
      rfl
    · rfl

/-- After the first pass the second finds exactly the orphans. -/
theorem orphaned_iff (distinct : (db.workers.map Worker.id).Nodup) :
    (db.marked cutoff).orphaned record = true ↔ db.Orphan cutoff record := by
  unfold Db.orphaned Db.Orphan Db.marked
  simp only [Bool.and_eq_true, Option.any_eq_true, List.any_eq_true, List.mem_map, decide_eq_true_eq]
  refine and_congr_right fun _ => ?_
  constructor
  · rintro ⟨workerId, owner, _, ⟨worker, member, rfl⟩, same, dead⟩
    rw [markDead_id] at same
    refine ⟨worker, member, same ▸ owner, ?_⟩
    rw [markDead_eq distinct member] at dead
    split at dead
    · assumption
    · exact .inl dead
  · rintro ⟨worker, member, owner, gone⟩
    refine ⟨worker.id, owner, _, ⟨worker, member, rfl⟩, markDead_id .., ?_⟩
    rw [markDead_eq distinct member, if_pos gone]

/-- The ids of the orphans. -/
theorem mem_orphans (workers : (db.workers.map Worker.id).Nodup)
    (jobs : (db.jobs.map fun record => record.job.id).Nodup) (member : record ∈ db.jobs) :
    record.job.id ∈ ((db.marked cutoff).orphans.map fun record => record.job.id) ↔
      db.Orphan cutoff record := by
  rw [← orphaned_iff workers]
  constructor
  · intro listed
    obtain ⟨other, kept, same⟩ := List.mem_map.mp listed
    obtain ⟨present, orphaned⟩ := List.mem_filter.mp kept
    rwa [unique_record jobs present member same] at orphaned
  · intro orphaned
    exact List.mem_map.mpr ⟨record, List.mem_filter.mpr ⟨member, orphaned⟩, rfl⟩

/-- The reaper's write to an orphan. -/
theorem reap_swept {entryId : Uuid} (orphan : db.Orphan cutoff record) :
    SweptJob db cutoff now record (record.reap now entryId) where
  spared := fun other => absurd orphan other
  claimed := by
    intro _ claimed
    simp [JobRecord.reap, JobRecord.requeue, claimed]
  requeued := by
    intro _ running left
    have more : ¬ record.job.maxAttempts ≤ record.job.attempts + 1 := by omega
    simp only [JobRecord.reap, running, if_true, JobRecord.chargeLost, ge_iff_le]
    rw [if_neg more]
    rfl
  buried := by
    intro _ running last
    simp only [JobRecord.reap, running, if_true, JobRecord.chargeLost, ge_iff_le]
    rw [if_pos last]
    exact ⟨_, rfl, rfl, rfl⟩

/-- What becomes of the status of an orphan. -/
theorem reap_status {entryId : Uuid} (flying : record.job.status.inFlight = true) :
    (record.reap now entryId).job.status = if record.exhausted then .dead else .queued := by
  cases status : record.job.status with
  | claimed => simp [JobRecord.reap, JobRecord.exhausted, JobRecord.requeue, status]
  | running =>
    by_cases last : record.job.maxAttempts ≤ record.job.attempts + 1 <;>
      simp [JobRecord.reap, JobRecord.exhausted, JobRecord.requeue, JobRecord.chargeLost,
        JobRecord.moveToDlq, status, last]
  | _ => simp [status, JobStatus.inFlight] at flying

/-- The sweep as an update of each row. -/
theorem reapDeadWorkers_eq (timeout : Nat) (jobs : (db.jobs.map fun record => record.job.id).Nodup) :
    reapDeadWorkers db timeout now draw =
      ({ db.marked (now - timeout) with
          jobs := db.jobs.map (reapWrite now draw
            ((db.marked (now - timeout)).orphans.map fun record => record.job.id)) },
        { workersReaped := (db.workers.filter (Worker.stale (now - timeout))).length +
            (db.workers.filter (Worker.neverHeartbeat (now - timeout))).length
          jobsRequeued := (db.marked (now - timeout)).orphans.countP fun record => !record.exhausted
          jobsDead := (db.marked (now - timeout)).orphans.countP JobRecord.exhausted }) := by
  have distinct : ((db.marked (now - timeout)).orphans.map fun record => record.job.id).Nodup :=
    jobs.sublist (List.filter_sublist.map _)
  have loop : (db.marked (now - timeout)).orphans.foldl (reapOrphan now draw)
      (db.marked (now - timeout), {}) = _ := reapOrphans _ distinct _ _
  have unfolded : reapDeadWorkers db timeout now draw =
      (((db.marked (now - timeout)).orphans.foldl (reapOrphan now draw)
          (db.marked (now - timeout), {})).1,
        { ((db.marked (now - timeout)).orphans.foldl (reapOrphan now draw)
            (db.marked (now - timeout), {})).2 with
          workersReaped := (db.workers.filter (Worker.stale (now - timeout))).length +
            (db.workers.filter (Worker.neverHeartbeat (now - timeout))).length }) := rfl
  rw [unfolded, loop]
  simp only [Nat.zero_add]
  rfl

/-- The sweep's write to a row of the table. -/
theorem reapWrite_eq (cutoff now : Time) (draw : Uuid → Uuid) (workers : (db.workers.map Worker.id).Nodup)
    (jobs : (db.jobs.map fun record => record.job.id).Nodup) (member : record ∈ db.jobs) :
    (db.Orphan cutoff record → reapWrite now draw
        ((db.marked cutoff).orphans.map fun record => record.job.id) record =
      record.reap now (draw record.job.id)) ∧
    (¬ db.Orphan cutoff record → reapWrite now draw
        ((db.marked cutoff).orphans.map fun record => record.job.id) record = record) := by
  have listed : record.job.id ∈ ((db.marked cutoff).orphans.map fun record => record.job.id) ↔
      db.Orphan cutoff record := mem_orphans workers jobs member
  exact ⟨fun orphan => if_pos (listed.mpr orphan), fun other => if_neg fun found => other (listed.mp found)⟩

theorem write_swept (workers : (db.workers.map Worker.id).Nodup)
    (jobs : (db.jobs.map fun record => record.job.id).Nodup) (member : record ∈ db.jobs) :
    SweptJob db cutoff now record (reapWrite now draw
      ((db.marked cutoff).orphans.map fun record => record.job.id) record) := by
  obtain ⟨swept, spared⟩ := reapWrite_eq cutoff now draw workers jobs member
  by_cases orphan : db.Orphan cutoff record
  · rw [swept orphan]
    exact reap_swept orphan
  · rw [spared orphan]
    exact ⟨fun _ => rfl, fun other => absurd other orphan, fun other => absurd other orphan,
      fun other => absurd other orphan⟩

/-- How many jobs the sweep gave this status. -/
theorem converted_jobs (workers : (db.workers.map Worker.id).Nodup)
    (jobs : (db.jobs.map fun record => record.job.id).Nodup) {status : JobStatus} {kind : JobRecord → Bool}
    (resting : status.inFlight = false)
    (given : ∀ record : JobRecord, record.job.status.inFlight = true →
      ((record.reap now (draw record.job.id)).job.status = status ↔ kind record = true)) :
    (db.marked cutoff).orphans.countP kind =
      converted db.jobs (db.jobs.map (reapWrite now draw
        ((db.marked cutoff).orphans.map fun record => record.job.id))) fun old new =>
          old.job.status.inFlight && new.job.status = status := by
  have selected : (db.marked cutoff).orphans.countP kind =
      db.jobs.countP fun record => kind record && (db.marked cutoff).orphaned record :=
    List.countP_filter
  rw [selected, converted_map]
  apply List.countP_congr
  intro record member
  obtain ⟨swept, spared⟩ := reapWrite_eq cutoff now draw workers jobs member
  by_cases orphan : db.Orphan cutoff record
  · rw [swept orphan]
    simp [(orphaned_iff workers).mpr orphan, orphan.1, given record orphan.1]
  · have other : (db.marked cutoff).orphaned record = false :=
      Bool.eq_false_iff.mpr fun found => orphan ((orphaned_iff workers).mp found)
    rw [spared orphan]
    simp only [other, Bool.and_false, Bool.false_eq_true, Bool.and_eq_true, decide_eq_true_eq,
      false_iff, not_and]
    rintro flying rfl
    rw [resting] at flying
    cases flying

/-- The count of the workers newly marked. -/
theorem converted_workers (workers : (db.workers.map Worker.id).Nodup) :
    (db.workers.filter (Worker.stale cutoff)).length +
        (db.workers.filter (Worker.neverHeartbeat cutoff)).length =
      converted db.workers (db.marked cutoff).workers fun old new =>
        old.status ≠ .dead && new.status = .dead := by
  have each : ∀ worker ∈ db.workers,
      ((worker.status ≠ .dead && (markDead (db.lost cutoff) worker).status = .dead) = true ↔
        (worker.stale cutoff || worker.neverHeartbeat cutoff) = true) := by
    intro worker member
    rw [markDead_eq workers member]
    by_cases dead : worker.status = .dead
    · simp [dead, Worker.stale, Worker.neverHeartbeat]
    · by_cases gone : worker.gone cutoff
      · have either := (gone_iff.mp gone).resolve_left dead
        simp [dead, gone, either]
      · have neither : ¬ (worker.stale cutoff = true ∨ worker.neverHeartbeat cutoff = true) :=
          fun either => gone (gone_iff.mpr (.inr either))
        simp only [gone, if_false, dead, Bool.or_eq_true, neither]
        simp
  have added : ∀ rows : List Worker, (rows.filter (Worker.stale cutoff)).length +
      (rows.filter (Worker.neverHeartbeat cutoff)).length =
        rows.countP fun worker => worker.stale cutoff || worker.neverHeartbeat cutoff := by
    intro rows
    induction rows with
    | nil => rfl
    | cons worker rest ih =>
      have apart : worker.stale cutoff = true → worker.neverHeartbeat cutoff = false := by
        unfold Worker.stale Worker.neverHeartbeat
        cases worker.lastHeartbeatAt <;> simp
      cases stale : worker.stale cutoff with
      | true =>
        simp only [List.filter_cons, stale, apart stale, if_true, List.countP_cons, Bool.true_or,
          List.length_cons, Bool.false_eq_true, if_false]
        omega
      | false =>
        cases silent : worker.neverHeartbeat cutoff <;>
          simp [stale, silent] <;> omega
  rw [added, Db.marked, converted_map]
  exact (List.countP_congr each).symm

/-- Nothing is left for a second sweep. -/
theorem reapDeadWorkers_idle (timeout : Nat)
    (quiet : ∀ worker ∈ db.workers, worker.gone (now - timeout) → worker.status = .dead)
    (recovered : ∀ record ∈ db.jobs, db.orphaned record = false) :
    reapDeadWorkers db timeout now draw = (db, {}) := by
  have stale : db.workers.filter (Worker.stale (now - timeout)) = [] := by
    apply List.filter_eq_nil_iff.mpr
    intro worker member found
    have dead := quiet worker member (gone_iff.mpr (.inr (.inl found)))
    simp [Worker.stale, dead] at found
  have silent : db.workers.filter (Worker.neverHeartbeat (now - timeout)) = [] := by
    apply List.filter_eq_nil_iff.mpr
    intro worker member found
    have dead := quiet worker member (gone_iff.mpr (.inr (.inr found)))
    simp [Worker.neverHeartbeat, dead] at found
  have same : db.workers.map (markDead []) = db.workers :=
    (List.map_congr_left fun _ _ => by simp [markDead]).trans (List.map_id _)
  have none : db.orphans = [] := by
    apply List.filter_eq_nil_iff.mpr
    intro record member
    simp [recovered record member]
  simp [reapDeadWorkers, stale, silent, same, none]

/-- A sweep leaves no orphan. -/
theorem reapDeadWorkers_recovers (workers : (db.workers.map Worker.id).Nodup)
    (jobs : (db.jobs.map fun record => record.job.id).Nodup) (timeout : Nat) :
    ∀ record ∈ (reapDeadWorkers db timeout now draw).1.jobs,
      (reapDeadWorkers db timeout now draw).1.orphaned record = false := by
  rw [reapDeadWorkers_eq timeout jobs]
  intro after written
  obtain ⟨record, member, rfl⟩ := List.mem_map.mp written
  obtain ⟨swept, spared⟩ := reapWrite_eq (now - timeout) now draw workers jobs member
  by_cases orphan : db.Orphan (now - timeout) record
  · have resting : (record.reap now (draw record.job.id)).job.status.inFlight = false := by
      rw [reap_status orphan.1]
      split <;> rfl
    rw [swept orphan, Db.orphaned, resting, Bool.false_and]
  · rw [spared orphan]
    exact Bool.eq_false_iff.mpr fun found => orphan ((orphaned_iff workers).mp found)

/-- And marks every worker which is gone. -/
theorem reapDeadWorkers_marks (workers : (db.workers.map Worker.id).Nodup)
    (jobs : (db.jobs.map fun record => record.job.id).Nodup) (timeout : Nat) :
    ∀ worker ∈ (reapDeadWorkers db timeout now draw).1.workers,
      worker.gone (now - timeout) → worker.status = .dead := by
  rw [reapDeadWorkers_eq timeout jobs]
  intro after written gone
  obtain ⟨worker, member, rfl⟩ := List.mem_map.mp written
  rw [markDead_eq workers member] at gone ⊢
  split
  · rfl
  · rename_i stays
    rw [if_neg stays] at gone
    exact absurd gone stays

/-- Where there is no orphan, no job in flight is under a dead worker. -/
theorem not_dead_of_recovered {worker : Worker} (present : worker ∈ db.workers)
    (recovered : db.orphaned record = false) (flying : record.job.status.inFlight = true)
    (owner : record.job.workerId = some worker.id) : worker.status ≠ .dead := by
  intro dead
  have held : db.orphaned record = true := by
    simp only [Db.orphaned, flying, owner, Option.any_some, Bool.true_and, List.any_eq_true,
      Bool.and_eq_true, decide_eq_true_eq]
    exact ⟨worker, present, rfl, dead⟩
  rw [recovered] at held
  cases held

end Sweep

/-- A sweep marks the workers which are gone, recovers exactly the jobs under them, counts
what it has done, and leaves nothing for a second sweep at the same time. -/
theorem sweep_exact {db : Db} (workers : (db.workers.map Worker.id).Nodup)
    (jobs : (db.jobs.map fun record => record.job.id).Nodup) (timeout : Nat) (now : Time)
    (draw again : Uuid → Uuid) :
    Swept db (reapDeadWorkers db timeout now draw).1 (now - timeout) now
        (reapDeadWorkers db timeout now draw).2 ∧
      reapDeadWorkers (reapDeadWorkers db timeout now draw).1 timeout now again =
        ((reapDeadWorkers db timeout now draw).1, {}) := by
  have recovered : ∀ record ∈ (reapDeadWorkers db timeout now draw).1.jobs,
      (reapDeadWorkers db timeout now draw).1.orphaned record = false :=
    reapDeadWorkers_recovers workers jobs timeout
  have marked : ∀ worker ∈ (reapDeadWorkers db timeout now draw).1.workers,
      worker.gone (now - timeout) → worker.status = .dead :=
    reapDeadWorkers_marks workers jobs timeout
  refine ⟨?_, reapDeadWorkers_idle timeout marked recovered⟩
  have noOrphan : ∀ record ∈ (reapDeadWorkers db timeout now draw).1.jobs,
      record.job.status.inFlight = true →
        ∀ worker ∈ (reapDeadWorkers db timeout now draw).1.workers,
          record.job.workerId = some worker.id → worker.status ≠ .dead :=
    fun record member flying worker present owner =>
      not_dead_of_recovered present (recovered record member) flying owner
  rw [reapDeadWorkers_eq timeout jobs] at noOrphan ⊢
  refine ⟨?_, ?_, rfl, noOrphan, converted_workers workers, ?_, ?_⟩
  · rw [Db.marked, List.forall₂_map_right_iff, List.forall₂_same]
    exact fun worker member => markDead_eq workers member
  · rw [List.forall₂_map_right_iff, List.forall₂_same]
    exact fun record member => write_swept workers jobs member
  · apply converted_jobs workers jobs rfl
    intro record flying
    rw [reap_status flying]
    cases record.exhausted <;> simp
  · apply converted_jobs workers jobs rfl
    intro record flying
    rw [reap_status flying]
    cases record.exhausted <;> simp

/-- Worker 2 is stale, worker 3 was dead before, worker 4 is well; job 8 was only claimed, job
9 has another attempt, and job 10 had its last one. -/
def abandoned : Db where
  queues := [⟨1, 1, none, "default", 0, 10, none, false⟩]
  workers := [⟨2, .active, 0, some 60⟩, ⟨3, .dead, 0, some 99⟩, ⟨4, .active, 0, some 95⟩]
  jobs := [
    { job := ⟨8, 1, .immediate, .claimed, 0, "8", "email", 0, 0, 3, none, some 18, some 3, none, none,
        none, none, some 50, none, none⟩ },
    { job := ⟨9, 1, .immediate, .running, 0, "9", "email", 0, 0, 3, none, some 19, some 2, none, none,
        none, none, some 50, some 50, none⟩
      executions := [⟨29, 1, .running, 50, none, none, none, none, 0⟩] },
    { job := ⟨10, 1, .immediate, .running, 0, "10", "email", 0, 2, 3, none, some 20, some 2, none, none,
        none, none, some 50, some 50, none⟩
      executions := [⟨30, 3, .running, 50, none, none, none, none, 0⟩] },
    { job := ⟨11, 1, .immediate, .running, 0, "11", "email", 0, 0, 3, none, some 21, some 4, none, none,
        none, none, some 50, some 50, none⟩
      executions := [⟨31, 1, .running, 50, none, none, none, none, 0⟩] }]

theorem sweep_exact_abandoned :
    (reapDeadWorkers abandoned 30 100 (100 + ·)).2 = ⟨1, 2, 1⟩ ∧
      Swept abandoned (reapDeadWorkers abandoned 30 100 (100 + ·)).1 (100 - (30 : Nat)) 100
        (reapDeadWorkers abandoned 30 100 (100 + ·)).2 ∧
      reapDeadWorkers (reapDeadWorkers abandoned 30 100 (100 + ·)).1 30 100 (200 + ·) =
        ((reapDeadWorkers abandoned 30 100 (100 + ·)).1, {}) :=
  ⟨by decide +kernel, sweep_exact (by decide) (by decide) 30 100 (100 + ·) (200 + ·)⟩

/-! The reaper's session, statement by statement. -/

/-- The session with nothing between its statements. -/
def reaperSession (sid : Sid) (now : Time) : List Action :=
  [.begin sid .reaper, .next sid { now }, .next sid { now }, .next sid { now }, .next sid { now },
    .next sid { now }]

section Session
variable {env : Environment} {state locked after : System} {sid : Sid} {now : Time}

/-- The session is at this stage, and has written nothing yet. -/
structure Reaches (origin : System) (sid : Sid) (session : Session) (state : System) : Prop where
  session : state.sessions sid = session
  db : state.db = origin.db
  waits : ∀ lock, state.waits sid lock = origin.waits sid lock

/-- A statement of the session which goes on. -/
theorem Reaches.next {origin : System} {session next : Session} {locks : List Lock} {input : Input}
    (reaches : Reaches origin sid session state) (free : session.worker = none)
    (made : session.effect env state sid input = some (.hold next locks))
    (taken : (pulse env).step state (.next sid input) = some after) :
    Reaches origin sid next after := by
  change step env state (.next sid input) = some after at taken
  simp only [step, reaches.session, free, Option.all_none, if_true, made, Option.bind_some] at taken
  obtain ⟨-, rfl⟩ := System.perform_hold taken
  exact ⟨Function.update_self .., reaches.db, fun lock => (blocked_acquire ..).trans (reaches.waits lock)⟩

/-- The session begins where nobody else is reaping. -/
theorem reaper_begun (begun : (pulse env).step state (.begin sid .reaper) = some after) :
    Reaches state sid .reaperLocked after ∨ after.sessions sid = .idle := by
  change step env state (.begin sid .reaper) = some after at begun
  simp only [step, Request.effect, tryLock, Option.bind_some] at begun
  split at begun
  · split at begun
    · cases Option.some.inj begun
      exact .inr (Function.update_self ..)
    · obtain ⟨-, rfl⟩ := System.perform_hold begun
      exact .inl ⟨Function.update_self .., rfl, fun _ => blocked_acquire ..⟩
  · cases begun

/-- The jobs which the sweep statement takes, where nobody has locked them. -/
theorem swept_orphans (free : ∀ record ∈ state.db.jobs,
      state.waits sid (.job record.job.id, .update) = false) (cutoff : Time) :
    ((state.db.jobs.filter fun record =>
      record.job.status.inFlight && record.job.workerId.any (deadInView state.db (state.db.lost cutoff)) &&
        !state.waits sid (.job record.job.id, .update)).map fun record => record.job.id) =
      (state.db.marked cutoff).orphans.map fun record => record.job.id := by
  apply congrArg
  apply List.filter_congr
  intro record member
  have seen : ∀ workerId, deadInView state.db (state.db.lost cutoff) workerId =
      (state.db.marked cutoff).workers.any fun worker =>
        worker.id = workerId && worker.status = .dead := by
    intro workerId
    simp [deadInView, Db.marked, List.any_map, Function.comp_def, markDead_id]
  rw [free record member, Bool.not_false, Bool.and_true, Db.orphaned, funext seen]

theorem Reaches.sweeps {origin : System} {session : Session} (reaches : Reaches origin sid session state)
    (free : ∀ record ∈ origin.db.jobs, origin.waits sid (.job record.job.id, .update) = false)
    (cutoff : Time) : sweepStatement state sid now (origin.db.lost cutoff) =
      .hold (.reaperSwept {
          now, lost := origin.db.lost cutoff
          orphans := (origin.db.marked cutoff).orphans.map fun record => record.job.id })
        (((origin.db.marked cutoff).orphans.map fun record => record.job.id).map
          fun id => (.job id, .update)) := by
  rw [← swept_orphans free, sweepStatement, reaches.db]
  simp only [reaches.waits]

/-- The system's reaper, undisturbed, does what `reap_dead_workers` does. -/
theorem session_sweeps (jobs : (state.db.jobs.map fun record => record.job.id).Nodup)
    (free : ∀ record ∈ state.db.jobs, state.waits sid (.job record.job.id, .update) = false)
    (ran : (pulse env).run anyStep state (reaperSession sid now) = some after) :
    ∃ draw, after.db = (reapDeadWorkers state.db env.settings.visibilityTimeoutSec now draw).1 := by
  obtain ⟨-, locked, begun, ran⟩ := Machine.run_cons.mp ran
  obtain ⟨-, stale, readStale, ran⟩ := Machine.run_cons.mp ran
  rcases reaper_begun begun with reaches | idle
  · obtain ⟨-, read, readSilent, ran⟩ := Machine.run_cons.mp ran
    obtain ⟨-, marked, marking, ran⟩ := Machine.run_cons.mp ran
    obtain ⟨-, swept, sweeping, ran⟩ := Machine.run_cons.mp ran
    obtain ⟨-, final, committing, ran⟩ := Machine.run_cons.mp ran
    cases Option.some.inj ran
    have first : Reaches state sid (.reaperStale now ((state.db.workers.filter
        (Worker.stale (now - env.settings.visibilityTimeoutSec))).map Worker.id)) stale :=
      reaches.next rfl (by rw [← reaches.db]; rfl) readStale
    have second : Reaches state sid (.reaperRead now
        (state.db.lost (now - env.settings.visibilityTimeoutSec))) read :=
      first.next rfl (by rw [Db.lost, List.map_append, ← first.db]; rfl) readSilent
    have third := second.next rfl rfl marking
    have fourth : Reaches state sid (.reaperSwept {
        now, lost := state.db.lost (now - env.settings.visibilityTimeoutSec)
        orphans := (state.db.marked (now - env.settings.visibilityTimeoutSec)).orphans.map
          fun record => record.job.id }) swept := by
      exact third.next rfl (congrArg some (third.sweeps free _)) sweeping
    change step env swept (.next sid { now }) = some after at committing
    simp only [step, fourth.session, Session.worker, Option.all_none, if_true, Session.effect,
      Bool.false_eq_true, if_false, sweepCommit, Option.bind_some] at committing
    obtain ⟨-, rfl⟩ := System.perform_commit committing
    refine ⟨swept.draw, ?_⟩
    have writes : ∀ orphans record, sweepWrite swept
        { now, lost := state.db.lost (now - env.settings.visibilityTimeoutSec), orphans } record =
          reapWrite now swept.draw orphans record := by
      intro orphans record
      simp [sweepWrite, reapWrite]
    rw [reapDeadWorkers_eq _ jobs, System.commit_db, fourth.db]
    simp only [Db.apply, funext (writes _), Db.marked, List.not_mem_nil, not_false_eq_true,
      decide_true, List.filter_true, List.map_nil, List.append_nil, id]
  · change step env locked (.next sid { now }) = some stale at readStale
    simp only [step, idle, Session.worker, Option.all_none, if_true, Session.effect,
      Option.bind_none, reduceCtorEq] at readStale

end Session
end Pulse
