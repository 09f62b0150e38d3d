import Pulse.Library.Grouping
import Pulse.Core.Rbac
import Pulse.Schema

/-! The progress of a batch, as `get_batch_progress` of `api/jobs.py` counts it. -/
namespace Pulse
open Library.Grouping

/-- `WHERE batch_id = batchId`. -/
def Db.batch (db : Db) (batchId : Uuid) : List Job :=
  (db.jobs.map JobRecord.job).filter fun job => job.batchId = some batchId

structure JobBatchProgress where
  batchId : Uuid
  total : Nat
  byStatus : List (JobStatus × Nat)
deriving DecidableEq, Repr

/-- `GROUP BY status`. -/
def statusCounts (jobs : List Job) : List (JobStatus × Nat) :=
  (jobs.map Job.status).dedup.map fun status => (status, (group Job.status jobs status).length)

/-- `get_batch_progress`: its first SELECT takes any one row of `db`, its last one sees `later`, and
`getQueueScoped` is `get_queue_scoped` of a viewer in between. -/
def getBatchProgress (getQueueScoped : Uuid → Except ApiError Unit) (db later : Db) (batchId : Uuid)
    (pick : Nat) : Except ApiError JobBatchProgress :=
  match (db.batch batchId)[pick % (db.batch batchId).length]? with
  | none => .error (.notFound "Batch not found")
  | some firstJob => do
    getQueueScoped firstJob.queueId
    let byStatus := statusCounts (later.batch batchId)
    return { batchId, total := (byStatus.map Prod.snd).sum, byStatus }

section Progress
variable {getQueueScoped : Uuid → Except ApiError Unit} {db later : Db} {batchId : Uuid} {pick : Nat}
  {progress : JobBatchProgress}

/-- Every job counts once. -/
theorem statusCounts_total (jobs : List Job) : ((statusCounts jobs).map Prod.snd).sum = jobs.length := by
  have counted : ((jobs.map Job.status).dedup.map fun status =>
      (group Job.status jobs status).length) = (jobs.map Job.status).dedup.map fun status =>
        (group Job.status jobs status).countP fun _ => true :=
    List.map_congr_left fun _ _ => (congrFun List.countP_true _).symm
  rw [statusCounts, List.map_map]
  refine (congrArg List.sum counted).trans ?_
  rw [sum_groups (List.nodup_dedup _)]
  refine List.countP_eq_length.mpr fun job member => ?_
  simpa using ⟨job, member, rfl⟩

/-- What an answer rests on. -/
theorem getBatchProgress_ok
    (answered : getBatchProgress getQueueScoped db later batchId pick = .ok progress) :
    (∃ firstJob ∈ db.batch batchId, getQueueScoped firstJob.queueId = .ok ()) ∧
      progress.total = (later.batch batchId).length := by
  unfold getBatchProgress at answered
  split at answered
  · cases answered
  · rename_i firstJob found
    cases allowed : getQueueScoped firstJob.queueId with
    | error error =>
      rw [allowed] at answered
      cases answered
    | ok =>
      rw [allowed] at answered
      cases answered
      exact ⟨⟨firstJob, List.mem_of_getElem? found, allowed⟩, statusCounts_total _⟩

end Progress
end Pulse
