import Pulse.Tenants.Requests
import Pulse.Safety.References

/-! A request writes rows of one organization alone, and only where its user has the
documented role. -/
namespace Pulse.Tenants
open Library.Lts

/-- The rows which a request here may write or delete. The rows of a job's executions and dead letters
carry its id. No request here writes users, organizations or their members; nor does one write
`job_logs` or `worker_heartbeats`, whose rows only go with their job, execution or worker. -/
inductive Row where
  | project (row : Project)
  | retryPolicy (row : RetryPolicy)
  | queue (row : Queue)
  | worker (row : Worker) (place : Option Placement)
  | scheduledJob (row : ScheduledJob)
  | job (row : Job)
  | execution (jobId : Uuid) (row : JobExecution)
  | deadLetter (jobId : Uuid) (row : DeadLetterEntry)

namespace World
variable (world : World)

def Has : Row → Prop
  | .project row => row ∈ world.projects
  | .retryPolicy row => row ∈ world.engine.db.retryPolicies
  | .queue row => row ∈ world.engine.db.queues
  | .worker row place => row ∈ world.engine.db.workers ∧ place = world.fleet row.id
  | .scheduledJob row => row ∈ world.engine.db.scheduledJobs
  | .job row => ∃ record ∈ world.engine.db.jobs, record.job = row
  | .execution jobId row => ∃ record ∈ world.engine.db.jobs, record.job.id = jobId ∧
      row ∈ record.executions
  | .deadLetter jobId row => ∃ record ∈ world.engine.db.jobs, record.job.id = jobId ∧
      row ∈ record.deadLetters

/-- The organization of a project. -/
def orgOf (projectId : Uuid) : Option Uuid :=
  (world.projects.find? fun project => project.id = projectId).map Project.orgId

/-- The organization of a queue's project. -/
def orgOfQueue (queueId : Uuid) : Option Uuid :=
  (world.engine.db.findQueue queueId).bind fun queue => world.orgOf queue.projectId

/-- The row lies under the organization, by each of its foreign keys. -/
def Under (orgId : Uuid) : Row → Prop
  | .project row => row.orgId = orgId
  | .retryPolicy row => world.orgOf row.projectId = some orgId
  | .queue row => world.orgOf row.projectId = some orgId
  | .worker _ place => ∃ known, place = some known ∧ world.orgOf known.projectId = some orgId
  | .scheduledJob row => world.orgOfQueue row.queueId = some orgId
  | .job row => world.orgOfQueue row.queueId = some orgId
  | .execution jobId _ => ∃ record ∈ world.engine.db.jobs, record.job.id = jobId ∧
      world.orgOfQueue record.job.queueId = some orgId
  | .deadLetter jobId row => world.orgOfQueue row.queueId = some orgId ∧
      ∃ record ∈ world.engine.db.jobs, record.job.id = jobId ∧
        world.orgOfQueue record.job.queueId = some orgId

/-- The user is a member of the organization with at least the role. -/
def Permits (userId orgId : Uuid) (minimum : MemberRole) : Prop :=
  ∃ membership, world.directory.findMembership orgId userId = some membership ∧
    roleAtLeast membership.role minimum = true

/-- The organization which owns what a request of one transaction addresses. -/
def ownerOfCall : ApiCall → Option Uuid
  | .registerWorker => none
  | .createJob body => world.orgOfQueue body.queueId
  | .createBatch body => world.orgOfQueue body.queueId
  | .createSchedule body => world.orgOfQueue body.queueId
  | .updateSchedule id _ | .deleteSchedule id =>
    (world.engine.db.findTemplate id).bind fun sched => world.orgOfQueue sched.queueId
  | .createQueue body => world.orgOf body.projectId
  | .updateQueue id _ | .setPaused id _ | .deleteQueue id => world.orgOfQueue id
  | .createRetryPolicy body => world.orgOf body.projectId
  | .updateRetryPolicy id _ | .deleteRetryPolicy id =>
    (world.engine.db.retryPolicies.find? fun policy => policy.id = id).bind fun policy =>
      world.orgOf policy.projectId

/-- The organization which owns the resource that a request addresses. -/
def owner : Request → Option Uuid
  | .call call => world.ownerOfCall call
  | .createProject body => some body.orgId
  | .retryJob jobId | .cancelJob jobId =>
    (world.engine.db.findJob jobId).bind fun record => world.orgOfQueue record.job.queueId
  | .replayDlqEntry entryId =>
    (world.engine.db.findLetter entryId).bind fun letter => world.orgOfQueue letter.2.queueId
  | .chaosKill body _ => world.orgOf body.projectId

end World

/-- What a request changes or deletes lies under the organization before it, and what it changes
or creates after it. -/
structure Confined (world after : World) (orgId : Uuid) : Prop where
  lost : ∀ row, world.Has row → ¬ after.Has row → world.Under orgId row
  gained : ∀ row, after.Has row → ¬ world.Has row → after.Under orgId row
  directory : after.directory = world.directory

/-- A request changes nothing, or rows of the organization which owns what it addresses, where
its user has the documented role. -/
structure Isolated (world after : World) (userId : Uuid) (request : Request) : Prop where
  confined : after = world ∨ ∃ orgId, world.owner request = some orgId ∧
    world.Permits userId orgId request.minimum ∧ Confined world after orgId
  refused : (∀ orgId, world.owner request = some orgId →
    ¬ world.Permits userId orgId request.minimum) → after = world

/-! The authorization. -/

section Authorization
variable {world : World} {userId : Uuid} {minimum : MemberRole}

theorem bind_ok {α β : Type} {result : Except ApiError α} {next : α → Except ApiError β} {value : β}
    (done : (result >>= next) = .ok value) : ∃ first, result = .ok first ∧ next first = .ok value := by
  cases result with
  | error error => cases done
  | ok first => exact ⟨first, rfl, done⟩

theorem ensureRole_permits {orgId : Uuid} {membership : OrganizationMember}
    (ensured : world.ensureRole userId minimum orgId = .ok membership) :
    world.Permits userId orgId minimum := by
  obtain ⟨row, member, required⟩ := bind_ok ensured
  unfold getOrgMembership at member
  split at member
  · rename_i found
    cases member
    unfold requireRole at required
    split at required
    · rename_i enough
      exact ⟨row, found, enough⟩
    · cases required
  · cases member

theorem getProject_orgOf {projectId : Uuid} {project : Project}
    (loaded : world.getProjectOr404 projectId = .ok project) :
    world.orgOf projectId = some project.orgId := by
  unfold World.getProjectOr404 at loaded
  split at loaded
  · rename_i found
    cases loaded
    rw [World.orgOf, found]
    rfl
  · cases loaded

theorem inProject_permits {projectId : Uuid} {project : Project}
    (within : world.inProject userId minimum projectId = .ok project) :
    ∃ orgId, world.orgOf projectId = some orgId ∧ world.Permits userId orgId minimum := by
  obtain ⟨found, loaded, rest⟩ := bind_ok within
  obtain ⟨membership, ensured, _⟩ := bind_ok rest
  exact ⟨found.orgId, getProject_orgOf loaded, ensureRole_permits ensured⟩

theorem getQueue_found {queueId : Uuid} {queue : Queue}
    (loaded : world.getQueueOr404 queueId = .ok queue) :
    world.engine.db.findQueue queueId = some queue := by
  unfold World.getQueueOr404 at loaded
  split at loaded
  · rename_i found
    cases loaded
    exact found
  · cases loaded

theorem getQueueScoped_permits {queueId : Uuid} {queue : Queue}
    (within : world.getQueueScoped userId minimum queueId = .ok queue) :
    ∃ orgId, world.orgOfQueue queueId = some orgId ∧ world.Permits userId orgId minimum := by
  obtain ⟨found, loaded, rest⟩ := bind_ok within
  obtain ⟨project, placed, rest⟩ := bind_ok rest
  obtain ⟨membership, ensured, _⟩ := bind_ok rest
  refine ⟨project.orgId, ?_, ensureRole_permits ensured⟩
  rw [World.orgOfQueue, getQueue_found loaded]
  exact getProject_orgOf placed

theorem getJobScoped_permits {jobId : Uuid} {record : JobRecord} {queue : Queue}
    (within : world.getJobScoped userId minimum jobId = .ok (record, queue)) :
    world.engine.db.findJob jobId = some record ∧
      ∃ orgId, world.orgOfQueue record.job.queueId = some orgId ∧
        world.Permits userId orgId minimum := by
  obtain ⟨first, loaded, rest⟩ := bind_ok within
  obtain ⟨found, housed, rest⟩ := bind_ok rest
  obtain ⟨project, placed, rest⟩ := bind_ok rest
  obtain ⟨membership, ensured, same⟩ := bind_ok rest
  cases same
  unfold World.getJobOr404 at loaded
  split at loaded
  · rename_i known
    cases loaded
    refine ⟨known, project.orgId, ?_, ensureRole_permits ensured⟩
    rw [World.orgOfQueue, getQueue_found housed]
    exact getProject_orgOf placed
  · cases loaded

theorem getScheduleScoped_permits {scheduleId : Uuid} {sched : ScheduledJob}
    (within : world.getScheduleScoped userId minimum scheduleId = .ok sched) :
    ∃ orgId, (world.engine.db.findTemplate scheduleId).bind (fun row => world.orgOfQueue row.queueId) =
      some orgId ∧ world.Permits userId orgId minimum := by
  unfold World.getScheduleScoped at within
  split at within
  · rename_i found
    obtain ⟨queue, housed, _⟩ := bind_ok within
    obtain ⟨orgId, lies, permits⟩ := getQueueScoped_permits housed
    refine ⟨orgId, ?_, permits⟩
    rw [Db.findTemplate, found]
    exact lies
  · cases within

theorem getPolicy_found {policyId : Uuid} {policy : RetryPolicy}
    (loaded : world.getPolicyOr404 policyId = .ok policy) :
    world.engine.db.retryPolicies.find? (fun row => row.id = policyId) = some policy := by
  unfold World.getPolicyOr404 at loaded
  split at loaded
  · rename_i found
    cases loaded
    exact found
  · cases loaded

/-- Each endpoint finds the organization which owns what it addresses. -/
theorem authorize_permits {call : ApiCall} (authorized : world.authorize userId call = .ok ()) :
    ∃ orgId, world.ownerOfCall call = some orgId ∧
      world.Permits userId orgId (Request.minimum (.call call)) := by
  cases call with
  | registerWorker => cases authorized
  | createJob | createBatch | createSchedule | updateQueue | setPaused | deleteQueue =>
    obtain ⟨queue, within, _⟩ := bind_ok authorized
    exact getQueueScoped_permits within
  | updateSchedule | deleteSchedule =>
    obtain ⟨sched, within, _⟩ := bind_ok authorized
    exact getScheduleScoped_permits within
  | createQueue | createRetryPolicy =>
    obtain ⟨project, within, _⟩ := bind_ok authorized
    exact inProject_permits within
  | updateRetryPolicy | deleteRetryPolicy =>
    obtain ⟨policy, loaded, rest⟩ := bind_ok authorized
    obtain ⟨project, within, _⟩ := bind_ok rest
    obtain ⟨orgId, lies, permits⟩ := inProject_permits within
    refine ⟨orgId, ?_, permits⟩
    rw [World.ownerOfCall, getPolicy_found loaded]
    exact lies

end Authorization

/-! The writes. -/

/-- The row is in one of the two tables alone. -/
def Changed {Row : Type} (before after : List Row) (row : Row) : Prop :=
  row ∈ before ∧ row ∉ after ∨ row ∈ after ∧ row ∉ before

section Changed
variable {Row : Type} {rows : List Row} {row : Row}

theorem Changed.of_same (changed : Changed rows rows row) : False := by
  rcases changed with ⟨member, absent⟩ | ⟨member, absent⟩ <;> exact absent member

theorem Changed.of_map {f : Row → Row} (changed : Changed rows (rows.map f) row) :
    ∃ old ∈ rows, f old ≠ old ∧ (row = old ∨ row = f old) := by
  rcases changed with ⟨member, absent⟩ | ⟨member, absent⟩
  · refine ⟨row, member, ?_, .inl rfl⟩
    intro same
    exact absent (List.mem_map.mpr ⟨row, member, same⟩)
  · obtain ⟨old, listed, rfl⟩ := List.mem_map.mp member
    refine ⟨old, listed, ?_, .inr rfl⟩
    intro same
    rw [same] at absent
    exact absent listed

/-- An UPDATE by primary key changes the row with that key. -/
theorem Changed.of_onId {key : Row → Uuid} {id : Uuid} {f : Row → Row}
    (changed : Changed rows (rows.map (onId key id f)) row) :
    ∃ old ∈ rows, key old = id ∧ (row = old ∨ row = f old) := by
  obtain ⟨old, listed, differs, same⟩ := changed.of_map
  unfold onId at differs same
  split at differs
  · rename_i keyed
    rw [if_pos keyed] at same
    exact ⟨old, listed, keyed, same⟩
  · exact absurd rfl differs

theorem Changed.of_filter {stays : Row → Bool} (changed : Changed rows (rows.filter stays) row) :
    row ∈ rows ∧ stays row = false := by
  rcases changed with ⟨member, absent⟩ | ⟨member, absent⟩
  · refine ⟨member, ?_⟩
    by_contra kept
    exact absent (List.mem_filter.mpr ⟨member, by simpa using kept⟩)
  · exact absurd (List.mem_filter.mp member).1 absent

theorem Changed.of_append {new : Row} (changed : Changed rows (rows ++ [new]) row) : row = new := by
  rcases changed with ⟨member, absent⟩ | ⟨member, absent⟩
  · exact absurd (List.mem_append_left _ member) absent
  · rcases List.mem_append.mp member with old | fresh
    · exact absurd old absent
    · exact List.mem_singleton.mp fresh

end Changed

/-- A patch which changes rows of the organization alone, and whose new rows find their queue. -/
structure Local (world : World) (orgId : Uuid) (patch : Patch) : Prop where
  kept : ∀ record : JobRecord, record.Kept (patch.job record)
  touched : ∀ record ∈ world.engine.db.jobs,
    record.job.id ∈ patch.deletedJobs ∨ patch.job record ≠ record →
      world.orgOfQueue record.job.queueId = some orgId
  inserted : ∀ job ∈ patch.newJobs, world.orgOfQueue job.queueId = some orgId
  queues : ∀ row, Changed world.engine.db.queues (patch.queues world.engine.db.queues) row →
    world.orgOf row.projectId = some orgId
  policies : ∀ row, Changed world.engine.db.retryPolicies
    (patch.retryPolicies world.engine.db.retryPolicies) row → world.orgOf row.projectId = some orgId
  templates : ∀ row, Changed world.engine.db.scheduledJobs
    (patch.scheduledJobs world.engine.db.scheduledJobs) row →
      world.orgOfQueue row.queueId = some orgId
  workers : patch.workers = id
  finds : (∀ queueId, world.orgOfQueue queueId = some orgId →
      (world.publish patch).orgOfQueue queueId = some orgId) ∨
    patch.job = id ∧ patch.newJobs = [] ∧
      patch.scheduledJobs world.engine.db.scheduledJobs ⊆ world.engine.db.scheduledJobs

section Writes
variable {world : World} {orgId : Uuid} {patch : Patch}

theorem Local.stays (scope : Local world orgId patch) {record : JobRecord}
    (member : record ∈ world.engine.db.jobs) :
    world.orgOfQueue record.job.queueId = some orgId ∨ record ∈ (world.publish patch).engine.db.jobs := by
  by_cases touched : record.job.id ∈ patch.deletedJobs ∨ patch.job record ≠ record
  · exact .inl (scope.touched record member touched)
  · rw [not_or, not_not] at touched
    exact .inr (mem_apply_jobs.mpr (.inl ⟨record, member, touched⟩))

/-- A row of a job after the request: it was there before, or its job lies under the
organization and comes from a job with these dead letters. -/
theorem Local.comes (scope : Local world orgId patch) {record : JobRecord}
    (member : record ∈ (world.publish patch).engine.db.jobs) : record ∈ world.engine.db.jobs ∨
      (world.publish patch).orgOfQueue record.job.queueId = some orgId ∧
        ((∃ old ∈ world.engine.db.jobs, old.Kept record) ∨ record.deadLetters = []) := by
  rcases mem_apply_jobs.mp member with ⟨old, present, alive, rfl⟩ | ⟨job, new, rfl⟩
  · by_cases same : patch.job old = old
    · exact .inl (same.symm ▸ present)
    · have lies := scope.touched old present (.inr same)
      rcases scope.finds with finds | ⟨untouched, _⟩
      · rw [(scope.kept old).queueId]
        exact .inr ⟨finds _ lies, .inl ⟨old, present, scope.kept old⟩⟩
      · exact absurd (congrFun untouched old) same
  · rcases scope.finds with finds | ⟨_, none, _⟩
    · exact .inr ⟨finds _ (scope.inserted job new), .inr rfl⟩
    · rw [none] at new
      cases new

theorem Local.confined (scope : Local world orgId patch)
    (letters : ∀ record ∈ world.engine.db.jobs, ∀ entry ∈ record.deadLetters,
      entry.queueId = record.job.queueId) : Confined world (world.publish patch) orgId := by
  have workers : (world.publish patch).engine.db.workers = world.engine.db.workers :=
    congrFun scope.workers _
  refine ⟨?_, ?_, rfl⟩
  · intro row was gone
    cases row with
    | project => exact absurd was gone
    | retryPolicy row => exact scope.policies row (.inl ⟨was, gone⟩)
    | queue row => exact scope.queues row (.inl ⟨was, gone⟩)
    | worker row place =>
      refine absurd ?_ gone
      rw [World.Has, workers]
      exact was
    | scheduledJob row => exact scope.templates row (.inl ⟨was, gone⟩)
    | job row =>
      obtain ⟨record, member, rfl⟩ := was
      rcases scope.stays member with lies | stays
      · exact lies
      · exact absurd ⟨record, stays, rfl⟩ gone
    | execution jobId row =>
      obtain ⟨record, member, same, listed⟩ := was
      rcases scope.stays member with lies | stays
      · exact ⟨record, member, same, lies⟩
      · exact absurd ⟨record, stays, same, listed⟩ gone
    | deadLetter jobId row =>
      obtain ⟨record, member, same, listed⟩ := was
      rcases scope.stays member with lies | stays
      · refine ⟨?_, record, member, same, lies⟩
        rw [letters record member row listed]
        exact lies
      · exact absurd ⟨record, stays, same, listed⟩ gone
  · intro row is new
    cases row with
    | project => exact absurd is new
    | retryPolicy row => exact scope.policies row (.inr ⟨is, new⟩)
    | queue row => exact scope.queues row (.inr ⟨is, new⟩)
    | worker row place =>
      refine absurd ?_ new
      rw [World.Has, workers] at is
      exact is
    | scheduledJob row =>
      have lies := scope.templates row (.inr ⟨is, new⟩)
      rcases scope.finds with finds | ⟨_, _, fewer⟩
      · exact finds _ lies
      · exact absurd (fewer is) new
    | job row =>
      obtain ⟨record, member, rfl⟩ := is
      rcases scope.comes member with old | ⟨lies, _⟩
      · exact absurd ⟨record, old, rfl⟩ new
      · exact lies
    | execution jobId row =>
      obtain ⟨record, member, same, listed⟩ := is
      rcases scope.comes member with old | ⟨lies, _⟩
      · exact absurd ⟨record, old, same, listed⟩ new
      · exact ⟨record, member, same, lies⟩
    | deadLetter jobId row =>
      obtain ⟨record, member, same, listed⟩ := is
      rcases scope.comes member with old | ⟨lies, ⟨old, present, kept⟩ | none⟩
      · exact absurd ⟨record, old, same, listed⟩ new
      · refine ⟨?_, record, member, same, lies⟩
        have inside : row.queueId = record.job.queueId := by
          rw [kept.queueId]
          rcases kept.letters row listed with queue | ⟨entry, had, queue⟩
          · exact queue
          · exact queue.symm.trans (letters old present entry had)
        rw [inside]
        exact lies
      · rw [none] at listed
        cases listed

theorem publish_orgOfQueue (queueId : Uuid) : (world.publish patch).orgOfQueue queueId =
    ((patch.queues world.engine.db.queues).find? fun queue => queue.id = queueId).bind fun queue =>
      world.orgOf queue.projectId :=
  rfl

/-- Rows of `queues` which are changed in place keep their organization. -/
theorem finds_map {f : Queue → Queue} (queues : patch.queues = fun rows => rows.map f)
    (ids : ∀ queue, (f queue).id = queue.id) (projects : ∀ queue, (f queue).projectId = queue.projectId)
    (queueId : Uuid) (lies : world.orgOfQueue queueId = some orgId) :
    (world.publish patch).orgOfQueue queueId = some orgId := by
  rw [publish_orgOfQueue, queues, find_map ids, Option.bind_map]
  simp only [Function.comp_def, projects]
  exact lies

theorem untouched : ∀ record ∈ world.engine.db.jobs,
    record.job.id ∈ ([] : List Uuid) ∨ id record ≠ record →
      world.orgOfQueue record.job.queueId = some orgId := by
  rintro record _ (deleted | differs)
  · exact absurd deleted List.not_mem_nil
  · exact absurd rfl differs

/-- The patch of a request which changes one job. -/
theorem Local.of_job {jobId : Uuid} {f : JobRecord → JobRecord} {record : JobRecord}
    (distinct : (world.engine.db.jobs.map fun record => record.job.id).Nodup)
    (found : world.engine.db.findJob jobId = some record)
    (lies : world.orgOfQueue record.job.queueId = some orgId)
    (kept : ∀ record : JobRecord, record.Kept (f record)) :
    Local world orgId { job := onJob jobId f } := by
  refine ⟨onJob_kept kept, ?_, fun _ new => absurd new List.not_mem_nil, fun _ changed => changed.of_same.elim,
    fun _ changed => changed.of_same.elim, fun _ changed => changed.of_same.elim, rfl,
    .inl fun _ => id⟩
  rintro other member (deleted | differs)
  · exact absurd deleted List.not_mem_nil
  · by_cases same : other.job.id = jobId
    · obtain ⟨known, named⟩ := Db.findJob_some found
      rw [unique_record distinct member known (same.trans named.symm)]
      exact lies
    · exact absurd (onJob_other same) differs

/-- The patch of a request which inserts jobs. -/
theorem Local.of_inserts {jobs : List Job}
    (lies : ∀ job ∈ jobs, world.orgOfQueue job.queueId = some orgId) :
    Local world orgId { newJobs := jobs } :=
  ⟨JobRecord.Kept.refl, untouched, lies,
    fun _ changed => changed.of_same.elim, fun _ changed => changed.of_same.elim,
    fun _ changed => changed.of_same.elim, rfl, .inl fun _ => id⟩

/-- The patch of a request which leaves the jobs alone. -/
theorem Local.of_tables {queues : List Queue → List Queue}
    {retryPolicies : List RetryPolicy → List RetryPolicy}
    {scheduledJobs : List ScheduledJob → List ScheduledJob}
    (houses : ∀ row, Changed world.engine.db.queues (queues world.engine.db.queues) row →
      world.orgOf row.projectId = some orgId)
    (policies : ∀ row, Changed world.engine.db.retryPolicies
      (retryPolicies world.engine.db.retryPolicies) row → world.orgOf row.projectId = some orgId)
    (templates : ∀ row, Changed world.engine.db.scheduledJobs
      (scheduledJobs world.engine.db.scheduledJobs) row → world.orgOfQueue row.queueId = some orgId)
    (finds : ∀ queueId, world.orgOfQueue queueId = some orgId →
      (world.publish { queues, retryPolicies, scheduledJobs }).orgOfQueue queueId = some orgId) :
    Local world orgId { queues, retryPolicies, scheduledJobs } :=
  ⟨JobRecord.Kept.refl, untouched, fun _ new => absurd new List.not_mem_nil, houses, policies,
    templates, rfl, .inl finds⟩

end Writes

section Calls
variable {env : Environment} {world : World} {orgId : Uuid} {now : Time} {call : ApiCall}
  {locks : List Lock} {patch : Patch}

/-- The queue which was found by the id of a row. -/
theorem orgOfQueue_found {queueId : Uuid} {queue : Queue}
    (found : world.engine.db.findQueue queueId = some queue)
    (lies : world.orgOfQueue queueId = some orgId) :
    queue.id = queueId ∧ world.orgOf queue.projectId = some orgId := by
  refine ⟨by simpa using List.find?_some found, ?_⟩
  rw [World.orgOfQueue, found] at lies
  exact lies

/-- The queue with an id. -/
theorem orgOf_queue (shape : Shape world.engine) {queue : Queue}
    (member : queue ∈ world.engine.db.queues) (lies : world.orgOfQueue queue.id = some orgId) :
    world.orgOf queue.projectId = some orgId :=
  (orgOfQueue_found (find_of_mem shape.issued.queues.1 member) lies).2

/-- The template with an id. -/
theorem orgOf_template (shape : Shape world.engine) {sched : ScheduledJob}
    (member : sched ∈ world.engine.db.scheduledJobs)
    (lies : (world.engine.db.findTemplate sched.id).bind (fun row => world.orgOfQueue row.queueId) =
      some orgId) : world.orgOfQueue sched.queueId = some orgId := by
  have found : world.engine.db.findTemplate sched.id = some sched :=
    find_of_mem shape.issued.templates.1 member
  rw [found] at lies
  exact lies

/-- The policy with an id. -/
theorem orgOf_policy (shape : Shape world.engine) {policy : RetryPolicy}
    (member : policy ∈ world.engine.db.retryPolicies)
    (lies : ((world.engine.db.retryPolicies.find? fun row => row.id = policy.id).bind fun row =>
      world.orgOf row.projectId) = some orgId) : world.orgOf policy.projectId = some orgId := by
  rw [find_of_mem shape.issued.policies.1 member] at lies
  exact lies

/-- An UPDATE of the queue which a request addresses. -/
theorem Local.of_queue (shape : Shape world.engine) {id : Uuid} {f : Queue → Queue}
    (ids : ∀ queue, (f queue).id = queue.id) (projects : ∀ queue, (f queue).projectId = queue.projectId)
    (lies : world.orgOfQueue id = some orgId) :
    Local world orgId { queues := fun rows => rows.map (onId Queue.id id f) } := by
  have placed : ∀ queue, (onId Queue.id id f queue).projectId = queue.projectId := by
    intro queue
    unfold onId
    split
    · exact projects queue
    · rfl
  refine .of_tables ?_ (fun _ changed => changed.of_same.elim) (fun _ changed => changed.of_same.elim)
    (finds_map rfl (onId_id ids) placed)
  intro row changed
  obtain ⟨old, member, rfl, rfl | rfl⟩ := changed.of_onId
  · exact orgOf_queue shape member lies
  · rw [projects]
    exact orgOf_queue shape member lies

theorem local_deleteQueue {id : Uuid} (shape : Shape world.engine)
    (made : Pulse.deleteQueue world.engine.db id = .commit .idle locks patch)
    (lies : world.orgOfQueue id = some orgId) : Local world orgId patch := by
  cases made
  refine ⟨JobRecord.Kept.refl, ?_, fun _ new => absurd new List.not_mem_nil, ?_,
    fun _ changed => changed.of_same.elim, ?_, rfl, .inr ⟨rfl, rfl, fun _ => List.mem_of_mem_filter⟩⟩
  · rintro record member (deleted | differs)
    · obtain ⟨twin, doomed, same⟩ := List.mem_map.mp deleted
      obtain ⟨there, inside⟩ := List.mem_filter.mp doomed
      rw [← unique_record shape.distinct there member same, show twin.job.queueId = id by simpa using inside]
      exact lies
    · exact absurd rfl differs
  · intro row changed
    obtain ⟨member, gone⟩ := changed.of_filter
    have same : row.id = id := by simpa using gone
    exact orgOf_queue shape member (same ▸ lies)
  · intro row changed
    obtain ⟨_, gone⟩ := changed.of_filter
    have same : row.queueId = id := by simpa using gone
    rw [same]
    exact lies

theorem local_deleteSchedule {id : Uuid} (shape : Shape world.engine) (inside : world.engine.db.Inside)
    (made : Pulse.deleteSchedule world.engine.db id = .commit .idle locks patch)
    (lies : (world.engine.db.findTemplate id).bind (fun row => world.orgOfQueue row.queueId) =
      some orgId) : Local world orgId patch := by
  cases made
  refine ⟨fun record => record.detach_kept id, ?_, fun _ new => absurd new List.not_mem_nil,
    fun _ changed => changed.of_same.elim, fun _ changed => changed.of_same.elim, ?_, rfl,
    .inl fun _ lies => lies⟩
  · rintro record member (deleted | differs)
    · exact absurd deleted List.not_mem_nil
    · have spawned : record.job.scheduledJobId = some id := by
        by_contra other
        exact differs (if_neg other)
      obtain ⟨template, found, queue⟩ := inside.templates record member id spawned
      rw [found] at lies
      rw [← queue]
      exact lies
  · intro row changed
    obtain ⟨member, gone⟩ := changed.of_filter
    have same : row.id = id := by simpa using gone
    exact orgOf_template shape member (same ▸ lies)

theorem local_deleteRetryPolicy {id : Uuid} (shape : Shape world.engine)
    (inside : world.engine.db.Inside)
    (lies : ((world.engine.db.retryPolicies.find? fun row => row.id = id).bind fun row =>
      world.orgOf row.projectId) = some orgId) :
    Local world orgId {
      retryPolicies := fun rows => rows.filter fun row => row.id ≠ id
      queues := fun rows => rows.map fun row =>
        if row.retryPolicyId = some id then { row with retryPolicyId := none } else row } := by
  refine .of_tables ?_ ?_ (fun _ changed => changed.of_same.elim) (finds_map rfl ?_ ?_)
  · intro row changed
    obtain ⟨old, member, differs, same⟩ := changed.of_map
    have refers : old.retryPolicyId = some id := by
      by_contra other
      exact differs (if_neg other)
    obtain ⟨policy, found, project⟩ := inside.policies old member id refers
    rw [Db.retryPolicyOf, refers, Option.bind_some] at found
    rw [found, Option.bind_some, project] at lies
    rw [if_pos refers] at same
    rcases same with rfl | rfl <;> exact lies
  · intro row changed
    obtain ⟨member, gone⟩ := changed.of_filter
    have same : row.id = id := by simpa using gone
    exact orgOf_policy shape member (same ▸ lies)
  · intro queue
    split <;> rfl
  · intro queue
    split <;> rfl

/-- A request of one transaction changes rows of the organization alone which owns what it
addresses. -/
theorem Local.of_answers (shape : Shape world.engine) (inside : world.engine.db.Inside)
    (answers : Answers env world.engine now call locks patch)
    (lies : world.ownerOfCall call = some orgId) : Local world orgId patch := by
  cases answers with
  | registerWorker => cases lies
  | @createJob body created made =>
    refine .of_inserts ?_
    intro job new
    rw [Option.mem_toList] at new
    cases new
    obtain ⟨queue, found, _, _, _, rfl⟩ := createJob_row made
    rw [show (body.row world.engine.db now world.engine.nextUuid queue).queueId = queue.id from rfl,
      (orgOfQueue_found found lies).1]
    exact lies
  | @createBatch body jobs made =>
    refine .of_inserts ?_
    intro job new
    obtain ⟨queue, found, rfl⟩ := createBatch_rows made
    obtain ⟨_, _, _, same, _⟩ := mem_batch_rows new
    rw [same, (orgOfQueue_found found lies).1]
    exact lies
  | @createSchedule body sched made =>
    refine .of_tables (fun _ changed => changed.of_same.elim) (fun _ changed => changed.of_same.elim)
      ?_ fun _ => id
    intro row changed
    cases changed.of_append
    obtain ⟨_, queue, found, same⟩ := createSchedule_row made
    rw [same, (orgOfQueue_found found lies).1]
    exact lies
  | @updateSchedule id isActive f made =>
    refine .of_tables (fun _ changed => changed.of_same.elim) (fun _ changed => changed.of_same.elim)
      ?_ fun _ lies => lies
    intro row changed
    obtain ⟨old, member, rfl, rfl | rfl⟩ := changed.of_onId
    · exact orgOf_template shape member lies
    · rw [(updateSchedule_id made old).2]
      exact orgOf_template shape member lies
  | deleteSchedule made => exact local_deleteSchedule shape inside made lies
  | @createQueue body queue made =>
    refine .of_tables ?_ (fun _ changed => changed.of_same.elim)
      (fun _ changed => changed.of_same.elim) ?_
    · intro row changed
      cases changed.of_append
      rw [createQueue_project made]
      exact lies
    · intro queueId lies
      obtain ⟨found, known, placed⟩ := Option.bind_eq_some_iff.mp lies
      rw [publish_orgOfQueue, find_append known]
      exact placed
  | updateQueue made =>
    obtain ⟨rfl, _⟩ := updateQueue_write made
    exact .of_queue shape (fun _ => rfl) (fun _ => rfl) lies
  | setPaused made =>
    cases setPaused_write made
    exact .of_queue shape (fun _ => rfl) (fun _ => rfl) lies
  | deleteQueue made => exact local_deleteQueue shape made lies
  | @createRetryPolicy body policy made =>
    refine .of_tables (fun _ changed => changed.of_same.elim) ?_
      (fun _ changed => changed.of_same.elim) fun _ => id
    intro row changed
    cases changed.of_append
    rw [createRetryPolicy_project made]
    exact lies
  | @updateRetryPolicy id body f made =>
    cases updateRetryPolicy_write made
    refine .of_tables (fun _ changed => changed.of_same.elim) ?_
      (fun _ changed => changed.of_same.elim) fun _ lies => lies
    intro row changed
    obtain ⟨old, member, rfl, same⟩ := changed.of_onId
    have placed := orgOf_policy shape member lies
    rcases same with rfl | rfl <;> exact placed
  | deleteRetryPolicy => exact local_deleteRetryPolicy shape inside lies

theorem perform_confined (shape : Shape world.engine) (inside : world.engine.db.Inside)
    (lies : world.ownerOfCall call = some orgId) : world.perform env now call = world ∨
      Confined world (world.perform env now call) orgId := by
  unfold World.perform
  cases made : call.effect env world.engine now with
  | hold | rollback => exact .inl rfl
  | commit next locks patch =>
    obtain ⟨_, answers⟩ := ApiCall.effect_answers made
    exact .inr ((Local.of_answers shape inside answers lies).confined inside.letters)

end Calls

section Requests
variable {env : Environment} {chaosEnabled : Bool} {world after : World} {userId orgId : Uuid}
  {now : Time} {request : Request}

/-- A new project is one of the organization. -/
theorem project_confined (project : Project) :
    Confined world { world with projects := world.projects ++ [project] } project.orgId := by
  refine ⟨?_, ?_, rfl⟩
  · intro row was gone
    cases row with
    | project row => exact absurd (List.mem_append_left _ was) gone
    | _ => exact absurd was gone
  · intro row is new
    cases row with
    | project row =>
      rcases List.mem_append.mp is with old | fresh
      · exact absurd old new
      · cases List.mem_singleton.mp fresh
        rfl
    | _ => exact absurd is new

/-- A worker which is live in a project is one of the project. -/
theorem live_place {projectId : Uuid} {worker : Worker} (listed : worker ∈ world.live env now projectId) :
    ∃ place, world.fleet worker.id = some place ∧ place.projectId = projectId := by
  obtain ⟨_, checks⟩ := List.mem_filter.mp listed
  simp only [Bool.and_eq_true, Option.any_eq_true, decide_eq_true_eq] at checks
  obtain ⟨⟨⟨place, found, same, _⟩, _⟩, _⟩ := checks
  exact ⟨place, found, same⟩

theorem kill_confined {workerId projectId : Uuid} {place : Placement}
    (found : world.fleet workerId = some place) (same : place.projectId = projectId)
    (lies : world.orgOf projectId = some orgId) :
    Confined world (world.kill workerId now) orgId := by
  have others : ∀ other, other ≠ workerId → (world.kill workerId now).fleet other = world.fleet other :=
    fun other different => Function.update_of_ne different ..
  refine ⟨?_, ?_, rfl⟩
  · intro row was gone
    cases row with
    | worker row known =>
      obtain ⟨member, rfl⟩ := was
      by_cases mine : row.id = workerId
      · rw [mine, found]
        exact ⟨place, rfl, same ▸ lies⟩
      · exact absurd ⟨member, (others _ mine).symm⟩ gone
    | _ => exact absurd was gone
  · intro row is new
    cases row with
    | worker row known =>
      obtain ⟨member, rfl⟩ := is
      by_cases mine : row.id = workerId
      · refine ⟨{ place with chaosKillRequestedAt := some now }, ?_, same ▸ lies⟩
        rw [mine, World.kill, found]
        exact Function.update_self ..
      · exact absurd ⟨member, others _ mine⟩ new
    | _ => exact absurd is new

/-- The job with a dead letter. -/
theorem findLetter_some {db : Db} {entryId : Uuid} {record : JobRecord} {entry : DeadLetterEntry}
    (found : db.findLetter entryId = some (record, entry)) :
    record ∈ db.jobs ∧ entry ∈ record.deadLetters := by
  obtain ⟨other, member, chosen⟩ := List.exists_of_findSome?_eq_some found
  obtain ⟨letter, listed, same⟩ := Option.map_eq_some_iff.mp chosen
  cases same
  exact ⟨member, List.mem_of_find?_eq_some listed⟩

/-- A request which is not refused writes under the organization for which it was authorized. -/
theorem handle_confined (shape : Shape world.engine) (inside : world.engine.db.Inside)
    (done : world.handle env chaosEnabled userId now request = .ok after) :
    ∃ orgId, world.owner request = some orgId ∧ world.Permits userId orgId request.minimum ∧
      (after = world ∨ Confined world after orgId) := by
  cases request with
  | call call =>
    obtain ⟨_, authorized, same⟩ := bind_ok done
    cases same
    obtain ⟨orgId, lies, permits⟩ := authorize_permits authorized
    exact ⟨orgId, lies, permits, perform_confined shape inside lies⟩
  | createProject body =>
    obtain ⟨membership, ensured, rest⟩ := bind_ok done
    split at rest <;> cases rest
    exact ⟨body.orgId, rfl, ensureRole_permits ensured, .inr (project_confined _)⟩
  | retryJob jobId =>
    obtain ⟨⟨record, queue⟩, within, rest⟩ := bind_ok done
    obtain ⟨found, orgId, lies, permits⟩ := getJobScoped_permits within
    simp only at rest
    split at rest <;> cases rest
    refine ⟨orgId, by rw [World.owner, found]; exact lies, permits, .inr (Local.confined ?_ inside.letters)⟩
    exact .of_job shape.distinct found lies fun row => row.requeueLetters_kept ..
  | cancelJob jobId =>
    obtain ⟨⟨record, queue⟩, within, rest⟩ := bind_ok done
    obtain ⟨found, orgId, lies, permits⟩ := getJobScoped_permits within
    simp only at rest
    split at rest <;> cases rest
    refine ⟨orgId, by rw [World.owner, found]; exact lies, permits, .inr (Local.confined ?_ inside.letters)⟩
    exact .of_job shape.distinct found lies fun row => row.cancel_kept _
  | replayDlqEntry entryId =>
    simp only [World.handle] at done
    split at done
    · cases done
    · rename_i record entry found
      obtain ⟨queue, within, rest⟩ := bind_ok done
      obtain ⟨orgId, lies, permits⟩ := getQueueScoped_permits within
      obtain ⟨member, listed⟩ := findLetter_some found
      split at rest
      · cases rest
      split at rest
      · cases rest
      cases rest
      refine ⟨orgId, by rw [World.owner, found]; exact lies, permits, .inr (Local.confined ?_ inside.letters)⟩
      -- The entry's queue is the job's.
      rw [inside.letters record member entry listed] at lies
      exact .of_job shape.distinct (find_of_mem shape.distinct member) lies fun row =>
        row.requeueLetters_kept ..
  | chaosKill body pick =>
    simp only [World.handle] at done
    split at done
    · cases done
    · obtain ⟨project, within, rest⟩ := bind_ok done
      obtain ⟨orgId, lies, permits⟩ := inProject_permits within
      have killed : ∀ worker ∈ world.live env now body.projectId,
          Confined world (world.kill worker.id now) orgId := by
        intro worker listed
        obtain ⟨place, found, same⟩ := live_place listed
        exact kill_confined found same lies
      refine ⟨orgId, lies, permits, ?_⟩
      split at rest
      · split at rest <;> cases rest
        rename_i worker found
        exact .inr (killed worker (List.mem_of_find?_eq_some found))
      · split at rest <;> cases rest
        rename_i worker found
        exact .inr (killed worker (List.mem_of_getElem? found))

theorem getCurrentUser_id {db : Directory} {user : User} (known : getCurrentUser db userId = .ok user) :
    user.id = userId := by
  unfold getCurrentUser at known
  split at known <;> cases known
  rename_i found
  simpa using List.find?_some found

/-- In every state of the engine, whatever the members, the projects and the workers' places
are: a request writes under one organization, in which its user has the documented role, and
changes no row where the user has not that role in the organization which it addresses. -/
theorem tenants_isolated (chaosEnabled : Bool) (userId : Uuid) (now : Time) (request : Request)
    (reachable : (pulse env).Reachable anyStep world.engine) :
    Isolated world (world.respond env chaosEnabled userId now request) userId request := by
  have shape := Shape.reachable reachable
  have inside := (References.reachable reachable).inside
  have answered : world.respond env chaosEnabled userId now request = world ∨
      ∃ orgId, world.owner request = some orgId ∧ world.Permits userId orgId request.minimum ∧
        Confined world (world.respond env chaosEnabled userId now request) orgId := by
    unfold World.respond
    split
    · rename_i after done
      obtain ⟨user, known, handled⟩ := bind_ok done
      cases getCurrentUser_id known
      obtain ⟨orgId, lies, permits, same | confined⟩ := handle_confined shape inside handled
      · exact .inl same
      · exact .inr ⟨orgId, lies, permits, confined⟩
    · exact .inl rfl
  refine ⟨answered, fun refused => ?_⟩
  rcases answered with same | ⟨orgId, lies, permits, _⟩
  · exact same
  · exact absurd permits (refused orgId lies)

end Requests

/-- A user who is a member of the organization of project 7 and owns another organization. -/
def tenancy (engine : System) : World where
  directory := {
    users := [{ id := 5, email := "dev@example.com" }]
    organizations := [{ id := 1, slug := "one" }, { id := 2, slug := "two" }]
    members := [
      { id := 3, orgId := 1, userId := 5, role := .member },
      { id := 4, orgId := 2, userId := 5, role := .owner }] }
  projects := [{ id := 7, orgId := 1, name := "main", slug := "main" }]
  engine := engine

/-- A queue of project 7 with a job. -/
def oneJob : List Action := [
  .begin 0 (.api 0 (.createQueue { projectId := 7, name := "default" })),
  .begin 0 (.api 0 (.createJob { queueId := 1, type := .immediate, handler := "noop" }))]

/-- The user cancels the job, and does not delete its queue. -/
theorem tenants_isolated_member : ∃ engine, (pulse everyMinute).Reachable anyStep engine ∧
    ((tenancy engine).respond everyMinute true 5 0 (.cancelJob 2)).engine.db.jobs.map
      (fun record => record.job.status) = [.cancelled] ∧
    ((tenancy engine).respond everyMinute true 5 0 (.call (.deleteQueue 1))).engine.db =
      engine.db ∧
    Isolated (tenancy engine) ((tenancy engine).respond everyMinute true 5 0 (.cancelJob 2)) 5
      (.cancelJob 2) := by
  have ran : ((pulse everyMinute).run anyStep {} oneJob).any (fun engine =>
      ((tenancy engine).respond everyMinute true 5 0 (.cancelJob 2)).engine.db.jobs.map
        (fun record => record.job.status) = [.cancelled] &&
      ((tenancy engine).respond everyMinute true 5 0 (.call (.deleteQueue 1))).engine.db =
        engine.db) = true := by
    decide +kernel
  obtain ⟨engine, reachable, passes⟩ := Machine.reachable_of_check rfl oneJob ran
  simp only [Bool.and_eq_true, decide_eq_true_eq] at passes
  exact ⟨engine, reachable, passes.1, passes.2, tenants_isolated true 5 0 (.cancelJob 2) reachable⟩

end Pulse.Tenants
