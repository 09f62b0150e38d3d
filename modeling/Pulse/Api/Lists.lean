import Pulse.Core.Pagination
import Pulse.Tenants.Requests

/-! The list endpoints which sort and page, once the request is authorized. -/
namespace Pulse

def JobType.value : JobType → String
  | .immediate => "immediate"
  | .delayed => "delayed"
  | .scheduled => "scheduled"
  | .recurring => "recurring"
  | .batch => "batch"

namespace Pagination
open Library.Pages

/-- The contents of a table. -/
structure Table where
  rows : List Row := []
  distinct : (rows.map Row.id).Nodup

/-- Members are unique by organization and user. -/
structure Tables where
  organizations : Table
  organizationMembers : Table
  projects : Table
  queues : Table
  workers : Table
  jobs : Table
  deadLetterQueue : Table
  retryPolicies : Table
  uqOrgMembersOrgUser : (organizationMembers.rows.map fun member =>
    (member.get "org_id", member.get "user_id")).Nodup

/-- `Model.field == value`. -/
def Row.equals (row : Row) (field : String) (value : Value) : Bool := row.get field = some value

def join (left right : List Row) (on : Row → Row → Bool) : List (Row × Row) :=
  left.flatMap fun row => (right.filter (on row)).map fun other => (row, other)

/-! The columns of each model. -/

def organizationColumns : List String := ["id", "name", "slug", "created_at"]

def projectColumns : List String := ["id", "org_id", "name", "slug", "created_at"]

def queueColumns : List String := [
  "id", "project_id", "retry_policy_id", "name", "priority_default", "concurrency_limit",
  "rate_limit_per_sec", "is_paused", "created_at"]

def workerColumns : List String := [
  "id", "project_id", "name", "hostname", "status", "queues", "concurrency", "registered_at",
  "last_heartbeat_at", "cpu_percent", "ram_mb", "chaos_kill_requested_at"]

def deadLetterEntryColumns : List String := [
  "id", "job_id", "queue_id", "payload", "final_error", "total_attempts", "failed_at",
  "replayed_at"]

def retryPolicyColumns : List String := [
  "id", "project_id", "name", "strategy", "base_delay_sec", "max_delay_sec", "max_attempts",
  "jitter_pct"]

def jobColumns : List String := [
  "id", "queue_id", "type", "status", "priority", "payload", "handler", "run_at", "attempts",
  "max_attempts", "idempotency_key", "lock_token", "worker_id", "depends_on", "batch_id",
  "cron_expr", "scheduled_job_id", "claimed_at", "started_at", "finished_at", "created_at",
  "updated_at"]

section Statements
variable (tables : Tables)

/-- `select(Model).where(Model.field == value)`. -/
def selectWhere (table : Table) (field : String) (value : Uuid) : Select :=
  { rows := table.rows.filter fun row => row.equals field (.uuid value) }

def selectOrgs (userId : Uuid) : Select :=
  { rows :=
    ((join tables.organizations.rows tables.organizationMembers.rows fun organization member =>
      member.equals "org_id" (.uuid organization.id)).filter fun pair =>
        pair.2.equals "user_id" (.uuid userId)).map Prod.fst }

def listOrgs (userId : Uuid) (sort : Option String) (order : String) : Select :=
  applySort (selectOrgs tables userId) organizationColumns sort order

def listProjects (orgId : Uuid) (sort : Option String) (order : String) : Select :=
  applySort (selectWhere tables.projects "org_id" orgId) projectColumns sort order

def listQueues (projectId : Uuid) (sort : Option String) (order : String) : Select :=
  applySort (selectWhere tables.queues "project_id" projectId) queueColumns sort order

def listWorkers (projectId : Uuid) (sort : Option String) (order : String) : Select :=
  applySort (selectWhere tables.workers "project_id" projectId) workerColumns sort order
    "registered_at"

def listDlq (queueId : Uuid) (sort : Option String) (order : String) : Select :=
  applySort (selectWhere tables.deadLetterQueue "queue_id" queueId) deadLetterEntryColumns sort order
    "failed_at"

def listRetryPolicies (projectId : Uuid) (sort : Option String) (order : String) : Select :=
  applySort (selectWhere tables.retryPolicies "project_id" projectId) retryPolicyColumns sort order
    "name"

/-- The optional conditions of `list_jobs`. -/
def jobFilter (queueId : Option Uuid) (jobStatus : Option JobStatus) (jobType : Option JobType)
    (job : Row) : Bool :=
  queueId.all (fun queueId => job.equals "queue_id" (.uuid queueId)) &&
    jobStatus.all (fun jobStatus => job.equals "status" (.text jobStatus.value)) &&
      jobType.all fun jobType => job.equals "type" (.text jobType.value)

def selectJobs (projectId : Uuid) (queueId : Option Uuid) (jobStatus : Option JobStatus)
    (jobType : Option JobType) : Select :=
  { rows :=
    ((join tables.jobs.rows tables.queues.rows fun job queue =>
      job.equals "queue_id" (.uuid queue.id)).filter fun pair =>
        pair.2.equals "project_id" (.uuid projectId) &&
          jobFilter queueId jobStatus jobType pair.1).map Prod.fst }

def listJobs (projectId : Uuid) (queueId : Option Uuid) (jobStatus : Option JobStatus)
    (jobType : Option JobType) (sort : Option String) (order : String) : Select :=
  applySort (selectJobs tables projectId queueId jobStatus jobType) jobColumns sort order

end Statements

/-- A request for a list. -/
inductive Listing where
  | orgs (userId : Uuid)
  | projects (orgId : Uuid)
  | queues (projectId : Uuid)
  | workers (projectId : Uuid)
  | dlq (queueId : Uuid)
  | retryPolicies (projectId : Uuid)
  | jobs (projectId : Uuid) (queueId : Option Uuid) (jobStatus : Option JobStatus)
      (jobType : Option JobType)
deriving DecidableEq, Repr

def Listing.stmt (tables : Tables) (sort : Option String) (order : String) : Listing → Select
  | .orgs userId => listOrgs tables userId sort order
  | .projects orgId => listProjects tables orgId sort order
  | .queues projectId => listQueues tables projectId sort order
  | .workers projectId => listWorkers tables projectId sort order
  | .dlq queueId => listDlq tables queueId sort order
  | .retryPolicies projectId => listRetryPolicies tables projectId sort order
  | .jobs projectId queueId jobStatus jobType =>
    listJobs tables projectId queueId jobStatus jobType sort order

def Listing.columns : Listing → List String
  | .orgs _ => organizationColumns
  | .projects _ => projectColumns
  | .queues _ => queueColumns
  | .workers _ => workerColumns
  | .dlq _ => deadLetterEntryColumns
  | .retryPolicies _ => retryPolicyColumns
  | .jobs .. => jobColumns

def Listing.defaultField : Listing → String
  | .workers _ => "registered_at"
  | .dlq _ => "failed_at"
  | .retryPolicies _ => "name"
  | .orgs _ | .projects _ | .queues _ | .jobs .. => "created_at"

/-- What FROM and WHERE give, which is then sorted. -/
def Listing.select (tables : Tables) : Listing → Select
  | .orgs userId => selectOrgs tables userId
  | .projects orgId => selectWhere tables.projects "org_id" orgId
  | .queues projectId => selectWhere tables.queues "project_id" projectId
  | .workers projectId => selectWhere tables.workers "project_id" projectId
  | .dlq queueId => selectWhere tables.deadLetterQueue "queue_id" queueId
  | .retryPolicies projectId => selectWhere tables.retryPolicies "project_id" projectId
  | .jobs projectId queueId jobStatus jobType => selectJobs tables projectId queueId jobStatus jobType

theorem Listing.stmt_eq (tables : Tables) (sort : Option String) (order : String)
    (listing : Listing) : listing.stmt tables sort order =
      applySort { rows := (listing.select tables).rows } listing.columns sort order
        listing.defaultField := by
  cases listing <;> rfl

/-- Every default is a column, so every list is sorted. -/
theorem Listing.defaultField_mem (listing : Listing) : listing.defaultField ∈ listing.columns := by
  cases listing <;> simp [Listing.defaultField, Listing.columns, organizationColumns,
    projectColumns, queueColumns, workerColumns, deadLetterEntryColumns, retryPolicyColumns,
    jobColumns]

end Pagination
end Pulse
