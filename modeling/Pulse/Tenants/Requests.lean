import Pulse.System.Step

/-! The requests of the API which write, each with the authorization in front of it and as one
atomic step. Bodies have passed their schema. -/
namespace Pulse

def JobStatus.value : JobStatus → String
  | .scheduled => "scheduled"
  | .queued => "queued"
  | .claimed => "claimed"
  | .running => "running"
  | .completed => "completed"
  | .failed => "failed"
  | .retrying => "retrying"
  | .dead => "dead"
  | .cancelled => "cancelled"

namespace Tenants

structure Project where
  id : Uuid
  orgId : Uuid
  name : String
  slug : String
deriving DecidableEq, Repr

/-- The columns of `workers` which no session of the engine uses. -/
structure Placement where
  projectId : Uuid
  name : String
  hostname : String
  chaosKillRequestedAt : Option Time := none
deriving DecidableEq, Repr

/-- All tables: those of the engine are part of its state. -/
structure World where
  directory : Directory := {}
  projects : List Project := []
  engine : System := {}
  fleet : Uuid → Option Placement := fun _ => none

structure ProjectCreate where
  orgId : Uuid
  name : String
  slug : String
deriving DecidableEq, Repr

/-- Without a worker's id a random live worker is killed. -/
structure ChaosKillRequest where
  projectId : Uuid
  workerId : Option Uuid := none
deriving DecidableEq, Repr

/-- `pick` is what `random.choice` draws. -/
inductive Request where
  | call (call : ApiCall)
  | createProject (body : ProjectCreate)
  | retryJob (jobId : Uuid)
  | cancelJob (jobId : Uuid)
  | replayDlqEntry (entryId : Uuid)
  | chaosKill (body : ChaosKillRequest) (pick : Nat)
deriving DecidableEq, Repr


namespace World
variable (world : World)

/-! `core/scoping.py` and `ensure_role`. -/

section Scoping
variable (userId : Uuid) (minimum : MemberRole)

def getProjectOr404 (projectId : Uuid) : Except ApiError Project :=
  match world.projects.find? fun project => project.id = projectId with
  | some project => .ok project
  | none => .error (.notFound "Project not found")

def getQueueOr404 (queueId : Uuid) : Except ApiError Queue :=
  match world.engine.db.findQueue queueId with
  | some queue => .ok queue
  | none => .error (.notFound "Queue not found")

def getJobOr404 (jobId : Uuid) : Except ApiError JobRecord :=
  match world.engine.db.findJob jobId with
  | some record => .ok record
  | none => .error (.notFound "Job not found")

/-- `_get_policy_or_404`. -/
def getPolicyOr404 (policyId : Uuid) : Except ApiError RetryPolicy :=
  match world.engine.db.retryPolicies.find? fun policy => policy.id = policyId with
  | some policy => .ok policy
  | none => .error (.notFound "Retry policy not found")

def ensureRole (orgId : Uuid) : Except ApiError OrganizationMember := do
  let membership ← getOrgMembership world.directory orgId userId
  requireRole minimum membership

def getQueueScoped (queueId : Uuid) : Except ApiError Queue := do
  let queue ← world.getQueueOr404 queueId
  let project ← world.getProjectOr404 queue.projectId
  let _ ← world.ensureRole userId minimum project.orgId
  return queue

def getJobScoped (jobId : Uuid) : Except ApiError (JobRecord × Queue) := do
  let record ← world.getJobOr404 jobId
  let queue ← world.getQueueOr404 record.job.queueId
  let project ← world.getProjectOr404 queue.projectId
  let _ ← world.ensureRole userId minimum project.orgId
  return (record, queue)

/-- `_get_schedule_scoped`. -/
def getScheduleScoped (scheduleId : Uuid) : Except ApiError ScheduledJob :=
  match world.engine.db.scheduledJobs.find? fun sched => sched.id = scheduleId with
  | some sched => do
    let _ ← world.getQueueScoped userId minimum sched.queueId
    return sched
  | none => .error (.notFound "Schedule not found")

/-- The project which a body or a policy names, and the caller's role in its organization. -/
def inProject (projectId : Uuid) : Except ApiError Project := do
  let project ← world.getProjectOr404 projectId
  let _ ← world.ensureRole userId minimum project.orgId
  return project

end Scoping

/-! The endpoints. -/

/-- What the endpoints of one transaction check before their own work. Workers register
themselves, by no request. -/
def authorize (userId : Uuid) : ApiCall → Except ApiError Unit
  | .registerWorker => .error (.notFound "Not Found")
  | .createJob body => do
    let _ ← world.getQueueScoped userId .member body.queueId
  | .createBatch body => do
    let _ ← world.getQueueScoped userId .member body.queueId
  | .createSchedule body => do
    let _ ← world.getQueueScoped userId .member body.queueId
  | .updateSchedule id _ => do
    let _ ← world.getScheduleScoped userId .member id
  | .deleteSchedule id => do
    let _ ← world.getScheduleScoped userId .member id
  | .createQueue body => do
    let _ ← world.inProject userId .admin body.projectId
  | .updateQueue id _ => do
    let _ ← world.getQueueScoped userId .admin id
  | .setPaused id _ => do
    let _ ← world.getQueueScoped userId .admin id
  | .deleteQueue id => do
    let _ ← world.getQueueScoped userId .admin id
  | .createRetryPolicy body => do
    let _ ← world.inProject userId .admin body.projectId
  | .updateRetryPolicy id _ => do
    let policy ← world.getPolicyOr404 id
    let _ ← world.inProject userId .admin policy.projectId
  | .deleteRetryPolicy id => do
    let policy ← world.getPolicyOr404 id
    let _ ← world.inProject userId .admin policy.projectId

/-- The request commits. -/
def publish (patch : Patch) : World :=
  { world with engine := { world.engine with
      db := world.engine.db.apply patch
      nextUuid := 2 * world.engine.nextUuid + patch.newJobs.length } }

/-- The work of an endpoint of one transaction; an error answer changes nothing. -/
def perform (env : Environment) (now : Time) (call : ApiCall) : World :=
  match call.effect env world.engine now with
  | .commit _ _ patch => world.publish patch
  | .hold _ _ | .rollback => world

/-- `_live_filter`. -/
def live (env : Environment) (now : Time) (projectId : Uuid) : List Worker :=
  world.engine.db.workers.filter fun worker =>
    (world.fleet worker.id).any (fun place =>
      place.projectId = projectId && place.chaosKillRequestedAt.isNone) &&
    (worker.status = .active || worker.status = .idle) &&
    worker.lastHeartbeatAt.any fun beat => now - env.settings.visibilityTimeoutSec ≤ beat

/-- `chaos_kill_requested_at = now`. -/
def kill (workerId : Uuid) (now : Time) : World :=
  let killed := (world.fleet workerId).map fun place =>
    { place with chaosKillRequestedAt := some now }
  { world with fleet := Function.update world.fleet workerId killed }

/-- A request of an authenticated user. -/
def handle (env : Environment) (chaosEnabled : Bool) (userId : Uuid) (now : Time) :
    Request → Except ApiError World
  | .call call => do
    world.authorize userId call
    return world.perform env now call
  | .createProject body => do
    let _ ← world.ensureRole userId .admin body.orgId
    if world.projects.any fun project => project.orgId = body.orgId && project.slug = body.slug then
      .error (.conflict "A project with this slug already exists in this organization")
    else
      let project : Project :=
        { id := world.engine.nextUuid, orgId := body.orgId, name := body.name, slug := body.slug }
      return { world with projects := world.projects ++ [project] }
  | .retryJob jobId => do
    let (record, _) ← world.getJobScoped userId .member jobId
    if record.job.status.retryable then
      let entries := record.openLetters.map DeadLetterEntry.id
      return world.publish { job := onJob jobId fun row => (row.consume now entries).reset now }
    else .error (.conflict ("Cannot retry a job in status '" ++ record.job.status.value ++ "'"))
  | .cancelJob jobId => do
    let (record, _) ← world.getJobScoped userId .member jobId
    if record.job.status.cancellable then
      return world.publish { job := onJob jobId fun row => row.cancel now }
    else .error (.conflict ("Cannot cancel a job in status '" ++ record.job.status.value ++ "'"))
  | .replayDlqEntry entryId =>
    match world.engine.db.findLetter entryId with
    | none => .error (.notFound "Dead letter entry not found")
    | some (record, entry) => do
      let _ ← world.getQueueScoped userId .member entry.queueId
      if entry.replayedAt.isSome then
        .error (.conflict "This dead letter entry has already been replayed")
      else if record.job.status ≠ .dead then
        .error (.conflict ("Job is no longer dead (status '" ++ record.job.status.value ++ "')"))
      else
        let jobId := record.job.id
        return world.publish { job := onJob jobId fun row => (row.consume now [entryId]).reset now }
  | .chaosKill body pick =>
    if !chaosEnabled then
      .error (.forbidden "Chaos engineering is disabled (CHAOS_ENABLED=false)")
    else do
      let _ ← world.inProject userId .admin body.projectId
      let live := world.live env now body.projectId
      match body.workerId with
      | some id => match live.find? fun worker => worker.id = id with
        | some worker => return world.kill worker.id now
        | none => .error (.notFound "No live worker with that id in this project")
      | none => match live[pick % live.length]? with
        | some worker => return world.kill worker.id now
        | none => .error (.unprocessable "There are no live workers to kill")

/-- The answer of the API: without a user there is none but 401. -/
def respond (env : Environment) (chaosEnabled : Bool) (userId : Uuid) (now : Time)
    (request : Request) : World :=
  match (getCurrentUser world.directory userId).bind fun user =>
    world.handle env chaosEnabled user.id now request with
  | .ok after => after
  | .error _ => world

end World

/-- The minimum roles of the tables of `docs/api.md`. -/
def Request.minimum : Request → MemberRole
  | .call (.createJob _) | .call (.createBatch _) | .call (.createSchedule _)
  | .call (.updateSchedule _ _) | .call (.deleteSchedule _) | .retryJob _ | .cancelJob _
  | .replayDlqEntry _ => .member
  | .call _ | .createProject _ | .chaosKill _ _ => .admin

end Tenants

end Pulse
