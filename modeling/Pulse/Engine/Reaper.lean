import Pulse.Engine.Scheduler
import Mathlib.Data.List.Forall2

/-! `reap_dead_workers`, with no other transaction between its statements. -/
namespace Pulse

structure ReapStats where
  workersReaped : Nat := 0
  jobsRequeued : Nat := 0
  jobsDead : Nat := 0
deriving DecidableEq, Repr

/-- In flight under a worker which is marked dead. -/
def Db.orphaned (db : Db) (record : JobRecord) : Bool :=
  record.job.status.inFlight && record.job.workerId.any fun workerId =>
    db.workers.any fun worker => worker.id = workerId && worker.status = .dead

def Db.orphans (db : Db) : List JobRecord := db.jobs.filter db.orphaned

/-- The job was running, and the lost attempt was its last one. -/
def JobRecord.exhausted (record : JobRecord) : Bool :=
  record.job.status = .running && record.job.attempts + 1 ≥ record.job.maxAttempts

/-- One orphan of the loop; `draw` gives the ids of new dead letters. -/
def reapOrphan (now : Time) (draw : Uuid → Uuid) (progress : Db × ReapStats)
    (record : JobRecord) : Db × ReapStats :=
  let jobId := record.job.id
  ({ progress.1 with jobs := progress.1.jobs.map (onJob jobId fun row => row.reap now (draw jobId)) },
    if record.exhausted then { progress.2 with jobsDead := progress.2.jobsDead + 1 }
    else { progress.2 with jobsRequeued := progress.2.jobsRequeued + 1 })

def reapDeadWorkers (db : Db) (visibilityTimeoutSec : Nat) (now : Time) (draw : Uuid → Uuid) :
    Db × ReapStats :=
  let cutoff := now - visibilityTimeoutSec
  let stale := db.workers.filter (Worker.stale cutoff)
  let neverHeartbeat := db.workers.filter (Worker.neverHeartbeat cutoff)
  let marked := { db with
    workers := db.workers.map (markDead ((stale ++ neverHeartbeat).map Worker.id)) }
  let swept := marked.orphans.foldl (reapOrphan now draw) (marked, {})
  (swept.1, { swept.2 with workersReaped := stale.length + neverHeartbeat.length })

section Loop
variable {now : Time} {draw : Uuid → Uuid} {record : JobRecord}

/-- The reaper's write to one job of the table. -/
def reapWrite (now : Time) (draw : Uuid → Uuid) (ids : List Uuid) (record : JobRecord) : JobRecord :=
  if record.job.id ∈ ids then record.reap now (draw record.job.id) else record

@[simp] theorem reap_id (entryId : Uuid) : (record.reap now entryId).job.id = record.job.id := by
  unfold JobRecord.reap
  dsimp only
  split
  · split <;> rfl
  · rfl

/-- The loop reaps each orphan once, and counts it once. -/
theorem reapOrphans (orphans : List JobRecord)
    (distinct : (orphans.map fun record => record.job.id).Nodup) (db : Db) (stats : ReapStats) :
    orphans.foldl (reapOrphan now draw) (db, stats) =
      ({ db with jobs := db.jobs.map (reapWrite now draw (orphans.map fun record => record.job.id)) },
        { stats with
          jobsRequeued := stats.jobsRequeued + orphans.countP fun record => !record.exhausted
          jobsDead := stats.jobsDead + orphans.countP JobRecord.exhausted }) := by
  induction orphans generalizing db stats with
  | nil =>
    have none : db.jobs.map (reapWrite now draw []) = db.jobs :=
      (List.map_congr_left fun _ _ => by simp [reapWrite]).trans (List.map_id _)
    simp [none]
  | cons record rest ih =>
    obtain ⟨new, others⟩ := List.nodup_cons.mp distinct
    have written : ∀ row ∈ db.jobs, reapWrite now draw (rest.map fun record => record.job.id)
        (onJob record.job.id (fun row => row.reap now (draw record.job.id)) row) =
        reapWrite now draw ((record :: rest).map fun record => record.job.id) row := by
      intro row _
      by_cases same : row.job.id = record.job.id
      · simp only [reapWrite, onJob, onId, same, if_true, reap_id, List.map_cons,
          List.mem_cons_self]
        rw [if_neg new]
      · simp only [reapWrite, onJob, onId, same, if_false, List.map_cons, List.mem_cons, false_or]
    have whole : (db.jobs.map (onJob record.job.id fun row => row.reap now (draw record.job.id))).map
        (reapWrite now draw (rest.map fun record => record.job.id)) =
        db.jobs.map (reapWrite now draw ((record :: rest).map fun record => record.job.id)) := by
      rw [List.map_map]
      exact List.map_congr_left written
    rw [List.foldl_cons, reapOrphan, ih others]
    simp only [whole]
    cases last : record.exhausted <;>
      simp [last, Nat.add_assoc, Nat.add_comm 1]

end Loop
end Pulse
