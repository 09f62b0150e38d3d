import Pulse.Api.Jobs

/-! `api/queues.py` and `api/retry_policies.py` as changes of their tables.
Authorization is not part of this module. -/
namespace Pulse

structure QueueCreate where
  projectId : Uuid
  name : String
  priorityDefault : Int := 0
  concurrencyLimit : Nat := 5
  rateLimitPerSec : Option Nat := none
  retryPolicyId : Option Uuid := none
deriving DecidableEq, Repr

/-- A field left out of the body is `none`. -/
structure QueueUpdate where
  name : Option String := none
  priorityDefault : Option Int := none
  concurrencyLimit : Option Nat := none
  rateLimitPerSec : Option (Option Nat) := none
  retryPolicyId : Option (Option Uuid) := none
deriving DecidableEq, Repr

private def queueFieldsValid (name : String) (priority : Int) (concurrency : Nat)
    (rate : Option Nat) : Bool :=
  1 ≤ name.length && name.length ≤ 200 && -1000 ≤ priority && priority ≤ 1000 &&
  1 ≤ concurrency && concurrency ≤ 10000 && rate.all fun r => 1 ≤ r && r ≤ 100000

def QueueCreate.valid (body : QueueCreate) : Bool :=
  queueFieldsValid body.name body.priorityDefault body.concurrencyLimit body.rateLimitPerSec

def QueueUpdate.valid (body : QueueUpdate) : Bool :=
  queueFieldsValid (body.name.getD "-") (body.priorityDefault.getD 0)
    (body.concurrencyLimit.getD 1) (body.rateLimitPerSec.getD none)

/-- `_validate_retry_policy`. -/
def validateRetryPolicy (db : Db) (retryPolicyId : Option Uuid) (projectId : Uuid) : Bool :=
  retryPolicyId.all fun id =>
    (db.retryPolicies.find? fun policy => policy.id = id).any fun policy =>
      policy.projectId = projectId

def Db.queueNameTaken (db : Db) (projectId : Uuid) (name : String) : Bool :=
  db.queues.any fun queue => queue.projectId = projectId && queue.name = name

def createQueue (db : Db) (id : Uuid) (body : QueueCreate) : Except ApiError Queue :=
  if !body.valid then .error (.unprocessable "Request validation failed")
  else if db.queueNameTaken body.projectId body.name then
    .error (.conflict "A queue with this name already exists in this project")
  else if !validateRetryPolicy db body.retryPolicyId body.projectId then
    .error (.unprocessable "retry_policy_id does not refer to a retry policy in this project")
  else .ok {
    id, projectId := body.projectId, retryPolicyId := body.retryPolicyId, name := body.name,
    priorityDefault := body.priorityDefault, concurrencyLimit := body.concurrencyLimit,
    rateLimitPerSec := body.rateLimitPerSec, isPaused := false }

/-- `setattr` of the fields sent. -/
def QueueUpdate.write (body : QueueUpdate) (queue : Queue) : Queue :=
  { queue with
    name := body.name.getD queue.name
    priorityDefault := body.priorityDefault.getD queue.priorityDefault
    concurrencyLimit := body.concurrencyLimit.getD queue.concurrencyLimit
    rateLimitPerSec := body.rateLimitPerSec.getD queue.rateLimitPerSec
    retryPolicyId := body.retryPolicyId.getD queue.retryPolicyId }

def updateQueue (db : Db) (id : Uuid) (body : QueueUpdate) : Except ApiError (Queue → Queue) :=
  if !body.valid then .error (.unprocessable "Request validation failed")
  else match db.findQueue id with
    | none => .error (.notFound "Queue not found")
    | some queue =>
      if body.name.any fun name => name ≠ queue.name && db.queueNameTaken queue.projectId name then
        .error (.conflict "A queue with this name already exists in this project")
      else if !validateRetryPolicy db (body.retryPolicyId.getD none) queue.projectId then
        .error (.unprocessable "retry_policy_id does not refer to a retry policy in this project")
      else .ok body.write

/-- `pause_queue` and `resume_queue`. -/
def setPaused (db : Db) (id : Uuid) (isPaused : Bool) : Except ApiError (Queue → Queue) :=
  match db.findQueue id with
  | none => .error (.notFound "Queue not found")
  | some _ => .ok fun queue => { queue with isPaused }

structure RetryPolicyCreate where
  projectId : Uuid
  name : String
  strategy : RetryStrategy
  baseDelaySec : Nat
  maxDelaySec : Nat
  maxAttempts : Nat
  jitterPct : ℚ := 0
deriving DecidableEq, Repr

/-- A field left out of the body is `none`. -/
structure RetryPolicyUpdate where
  name : Option String := none
  strategy : Option RetryStrategy := none
  baseDelaySec : Option Nat := none
  maxDelaySec : Option Nat := none
  maxAttempts : Option Nat := none
  jitterPct : Option ℚ := none
deriving DecidableEq, Repr

private def policyFieldsValid (name : String) (base maxDelay attempts : Nat) (jitter : ℚ) : Bool :=
  1 ≤ name.length && name.length ≤ 200 && base ≤ 86400 && maxDelay ≤ 7 * 86400 &&
  1 ≤ attempts && attempts ≤ 100 && 0 ≤ jitter && jitter ≤ 1

def RetryPolicyCreate.valid (body : RetryPolicyCreate) : Bool :=
  policyFieldsValid body.name body.baseDelaySec body.maxDelaySec body.maxAttempts body.jitterPct &&
    body.baseDelaySec ≤ body.maxDelaySec

def RetryPolicyUpdate.valid (body : RetryPolicyUpdate) : Bool :=
  policyFieldsValid (body.name.getD "-") (body.baseDelaySec.getD 0) (body.maxDelaySec.getD 0)
    (body.maxAttempts.getD 1) (body.jitterPct.getD 0)

def createRetryPolicy (id : Uuid) (body : RetryPolicyCreate) : Except ApiError RetryPolicy :=
  if !body.valid then .error (.unprocessable "Request validation failed")
  else .ok {
    id, projectId := body.projectId, name := body.name, strategy := body.strategy,
    baseDelaySec := body.baseDelaySec, maxDelaySec := body.maxDelaySec,
    maxAttempts := body.maxAttempts, jitterPct := body.jitterPct }

def RetryPolicyUpdate.write (body : RetryPolicyUpdate) (policy : RetryPolicy) : RetryPolicy :=
  { policy with
    name := body.name.getD policy.name
    strategy := body.strategy.getD policy.strategy
    baseDelaySec := body.baseDelaySec.getD policy.baseDelaySec
    maxDelaySec := body.maxDelaySec.getD policy.maxDelaySec
    maxAttempts := body.maxAttempts.getD policy.maxAttempts
    jitterPct := body.jitterPct.getD policy.jitterPct }

def updateRetryPolicy (body : RetryPolicyUpdate) : Except ApiError (RetryPolicy → RetryPolicy) :=
  if !body.valid then .error (.unprocessable "Request validation failed")
  else .ok body.write

theorem RetryPolicyCreate.valid_iff {body : RetryPolicyCreate} : body.valid = true ↔
    (1 ≤ body.name.length ∧ body.name.length ≤ 200 ∧ body.baseDelaySec ≤ 86400 ∧
      body.maxDelaySec ≤ 7 * 86400 ∧ 1 ≤ body.maxAttempts ∧ body.maxAttempts ≤ 100 ∧
      0 ≤ body.jitterPct ∧ body.jitterPct ≤ 1) ∧ body.baseDelaySec ≤ body.maxDelaySec := by
  simp only [RetryPolicyCreate.valid, policyFieldsValid, Bool.and_eq_true, decide_eq_true_eq,
    and_assoc]

theorem updateQueue_write {db : Db} {id : Uuid} {body : QueueUpdate} {f : Queue → Queue}
    (made : updateQueue db id body = .ok f) : f = body.write ∧ ∃ queue,
      db.findQueue id = some queue ∧
      validateRetryPolicy db (body.retryPolicyId.getD none) queue.projectId = true := by
  unfold updateQueue at made
  split at made
  · cases made
  split at made
  · cases made
  rename_i queue found
  split at made
  · cases made
  split at made
  · cases made
  rename_i inside
  cases made
  exact ⟨rfl, queue, found, by simpa using inside⟩

theorem setPaused_write {db : Db} {id : Uuid} {isPaused : Bool} {f : Queue → Queue}
    (made : setPaused db id isPaused = .ok f) : f = fun queue => { queue with isPaused } := by
  unfold setPaused at made
  split at made <;> cases made
  rfl

theorem createQueue_row {db : Db} {id : Uuid} {body : QueueCreate} {queue : Queue}
    (made : createQueue db id body = .ok queue) : queue.id = id ∧
      validateRetryPolicy db queue.retryPolicyId queue.projectId = true := by
  unfold createQueue at made
  split at made
  · cases made
  split at made
  · cases made
  split at made
  · cases made
  rename_i inside
  cases made
  exact ⟨rfl, by simpa using inside⟩

theorem createQueue_project {db : Db} {id : Uuid} {body : QueueCreate} {queue : Queue}
    (made : createQueue db id body = .ok queue) : queue.projectId = body.projectId := by
  unfold createQueue at made
  split at made
  · cases made
  split at made
  · cases made
  split at made
  · cases made
  cases made
  rfl

theorem createRetryPolicy_project {id : Uuid} {body : RetryPolicyCreate} {policy : RetryPolicy}
    (made : createRetryPolicy id body = .ok policy) : policy.projectId = body.projectId := by
  unfold createRetryPolicy at made
  split at made <;> cases made
  rfl

theorem createRetryPolicy_id {id : Uuid} {body : RetryPolicyCreate} {policy : RetryPolicy}
    (made : createRetryPolicy id body = .ok policy) : policy.id = id := by
  unfold createRetryPolicy at made
  split at made <;> cases made
  rfl

theorem updateRetryPolicy_write {body : RetryPolicyUpdate} {f : RetryPolicy → RetryPolicy}
    (made : updateRetryPolicy body = .ok f) : f = body.write := by
  unfold updateRetryPolicy at made
  split at made <;> cases made
  rfl

/-- What creation requires of a policy. -/
structure RetryPolicy.Admitted (policy : RetryPolicy) : Prop where
  delays : policy.baseDelaySec ≤ policy.maxDelaySec
  attempts : 1 ≤ policy.maxAttempts ∧ policy.maxAttempts ≤ 100
  jitter : 0 ≤ policy.jitterPct ∧ policy.jitterPct ≤ 1

theorem createRetryPolicy_admitted {id : Uuid} {body : RetryPolicyCreate} {policy : RetryPolicy}
    (created : createRetryPolicy id body = .ok policy) : policy.Admitted := by
  unfold createRetryPolicy at created
  split at created
  · cases created
  · rename_i valid
    cases created
    have meets := RetryPolicyCreate.valid_iff.mp (by simpa using valid)
    obtain ⟨⟨_, _, _, _, least, most, positive, within⟩, ordered⟩ := meets
    exact ⟨ordered, ⟨least, most⟩, positive, within⟩

/-- A stored policy admits at least one attempt. -/
def RetryPolicy.usable (policy : RetryPolicy) : Prop :=
  0 < policy.maxAttempts

theorem createRetryPolicy_usable {id : Uuid} {body : RetryPolicyCreate} {policy : RetryPolicy}
    (created : createRetryPolicy id body = .ok policy) : policy.usable := by
  unfold createRetryPolicy at created
  split at created
  · cases created
  · rename_i valid
    cases created
    simp only [RetryPolicyCreate.valid, policyFieldsValid, Bool.not_eq_true', Bool.and_eq_true,
      decide_eq_true_eq, Bool.not_eq_false] at valid
    simp only [RetryPolicy.usable]
    omega

theorem updateRetryPolicy_usable {body : RetryPolicyUpdate} {f : RetryPolicy → RetryPolicy}
    (updated : updateRetryPolicy body = .ok f) {policy : RetryPolicy} (usable : policy.usable) :
    (f policy).usable := by
  unfold updateRetryPolicy at updated
  split at updated
  · cases updated
  · rename_i valid
    cases updated
    simp only [RetryPolicyUpdate.valid, policyFieldsValid, Bool.not_eq_true', Bool.and_eq_true,
      decide_eq_true_eq, Bool.not_eq_false] at valid
    simp only [RetryPolicy.usable, RetryPolicyUpdate.write] at usable ⊢
    cases sent : body.maxAttempts with
    | none => simpa using usable
    | some limit =>
      simp only [sent, Option.getD_some] at valid ⊢
      omega

end Pulse
