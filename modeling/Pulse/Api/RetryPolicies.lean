import Pulse.Api.Queues
import Pulse.Library.Lts

/-! The endpoints which write retry policies, with their bodies as they are sent: a field of a
PATCH is left out, `null` or a value, and an attribute may be `None` until the commit. -/
namespace Pulse.RetryPolicies
open Library.Lts

/-- A row of `retry_policies` as its session holds it. -/
structure PolicyRow where
  id : Uuid
  projectId : Uuid
  name : Option String
  strategy : Option RetryStrategy
  baseDelaySec : Option Int
  maxDelaySec : Option Int
  maxAttempts : Option Int
  jitterPct : Option ℚ
deriving DecidableEq, Repr

structure RetryPolicyCreate where
  projectId : Uuid
  name : String
  strategy : RetryStrategy
  baseDelaySec : Int
  maxDelaySec : Int
  maxAttempts : Int
  jitterPct : ℚ := 0
deriving DecidableEq, Repr

/-- A field of a PATCH: left out, `null` or a value. -/
abbrev Sent (α : Type) := Option (Option α)

structure RetryPolicyUpdate where
  name : Sent String := none
  strategy : Sent RetryStrategy := none
  baseDelaySec : Sent Int := none
  maxDelaySec : Sent Int := none
  maxAttempts : Sent Int := none
  jitterPct : Sent ℚ := none
deriving DecidableEq, Repr

/-! The `Field` constraints, which both bodies share. -/

def nameField (name : String) : Bool := 1 ≤ name.length && name.length ≤ 200
def baseDelayField (value : Int) : Bool := 0 ≤ value && value ≤ 86400
def maxDelayField (value : Int) : Bool := 0 ≤ value && value ≤ 7 * 86400
def maxAttemptsField (value : Int) : Bool := 1 ≤ value && value ≤ 100
def jitterField (value : ℚ) : Bool := 0 ≤ value && value ≤ 1

/-- `_max_not_below_base`. -/
def RetryPolicyCreate.maxNotBelowBase (body : RetryPolicyCreate) : Except String RetryPolicyCreate :=
  if body.maxDelaySec < body.baseDelaySec then .error "max_delay_sec must be >= base_delay_sec"
  else .ok body

def RetryPolicyCreate.valid (body : RetryPolicyCreate) : Bool :=
  nameField body.name && baseDelayField body.baseDelaySec && maxDelayField body.maxDelaySec &&
    maxAttemptsField body.maxAttempts && jitterField body.jitterPct && body.maxNotBelowBase.isOk

/-- A constraint is checked where there is a value. -/
def Sent.meets {α : Type} (constraint : α → Bool) : Sent α → Bool
  | some (some value) => constraint value
  | _ => true

def Sent.isNull {α : Type} : Sent α → Bool
  | some none => true
  | _ => false

/-- The fields which are sent as `null`. -/
def RetryPolicyUpdate.nulls (body : RetryPolicyUpdate) : List String :=
  [("name", body.name.isNull), ("strategy", body.strategy.isNull),
    ("base_delay_sec", body.baseDelaySec.isNull), ("max_delay_sec", body.maxDelaySec.isNull),
    ("max_attempts", body.maxAttempts.isNull), ("jitter_pct", body.jitterPct.isNull)].filterMap
      fun field => if field.2 then some field.1 else none

/-- `_reject_null` raises one of these, that of the field which it comes to first. -/
def RetryPolicyUpdate.rejectNull (body : RetryPolicyUpdate) : List String :=
  body.nulls.map (· ++ " cannot be null")

def RetryPolicyUpdate.valid (body : RetryPolicyUpdate) : Bool :=
  body.name.meets nameField && body.baseDelaySec.meets baseDelayField &&
    body.maxDelaySec.meets maxDelayField && body.maxAttempts.meets maxAttemptsField &&
    body.jitterPct.meets jitterField && body.rejectNull.isEmpty

/-- `setattr` for every field of `model_dump(exclude_unset=True)`. -/
def RetryPolicyUpdate.write (body : RetryPolicyUpdate) (row : PolicyRow) : PolicyRow :=
  { row with
    name := body.name.getD row.name
    strategy := body.strategy.getD row.strategy
    baseDelaySec := body.baseDelaySec.getD row.baseDelaySec
    maxDelaySec := body.maxDelaySec.getD row.maxDelaySec
    maxAttempts := body.maxAttempts.getD row.maxAttempts
    jitterPct := body.jitterPct.getD row.jitterPct }

/-- `RetryPolicy(**body.model_dump())`. -/
def RetryPolicyCreate.row (body : RetryPolicyCreate) (id : Uuid) : PolicyRow where
  id := id
  projectId := body.projectId
  name := some body.name
  strategy := some body.strategy
  baseDelaySec := some body.baseDelaySec
  maxDelaySec := some body.maxDelaySec
  maxAttempts := some body.maxAttempts
  jitterPct := some body.jitterPct

def invalidRequest : ApiError := .unprocessable "Request validation failed"

/-- The answer to an `IntegrityError`. -/
def integrityError : ApiError := .conflict "The request conflicts with existing data"

/-- The columns are NOT NULL. -/
def PolicyRow.complete (row : PolicyRow) : Bool :=
  row.name.isSome && row.strategy.isSome && row.baseDelaySec.isSome && row.maxDelaySec.isSome &&
    row.maxAttempts.isSome && row.jitterPct.isSome

/-- A request of a user who is signed in. `access` is the answer of `get_project_or_404` and
`ensure_role`, and `id` is drawn by `gen_random_uuid`. -/
inductive Request where
  | create (id : Uuid) (access : Except ApiError Unit) (body : RetryPolicyCreate)
  | update (policyId : Uuid) (access : Except ApiError Unit) (body : RetryPolicyUpdate)
deriving DecidableEq

def createRetryPolicy (table : List PolicyRow) (id : Uuid) (access : Except ApiError Unit)
    (body : RetryPolicyCreate) : Except ApiError (List PolicyRow) :=
  if !body.valid then .error invalidRequest
  else match access with
    | .error refused => .error refused
    | .ok _ =>
      if id ∈ table.map PolicyRow.id then .error integrityError
      else if !(body.row id).complete then .error integrityError
      else .ok (table ++ [body.row id])

def updateRetryPolicy (table : List PolicyRow) (policyId : Uuid) (access : Except ApiError Unit)
    (body : RetryPolicyUpdate) : Except ApiError (List PolicyRow) :=
  if !body.valid then .error invalidRequest
  else match table.find? fun row => row.id = policyId with
    | none => .error (.notFound "Retry policy not found")
    | some row => match access with
      | .error refused => .error refused
      | .ok _ =>
        if !(body.write row).complete then .error integrityError
        else .ok (table.map (onId PolicyRow.id policyId body.write))

def answer (table : List PolicyRow) : Request → Except ApiError (List PolicyRow)
  | .create id access body => createRetryPolicy table id access body
  | .update policyId access body => updateRetryPolicy table policyId access body

/-- A refused request leaves the table. -/
def step (table : List PolicyRow) (request : Request) : Option (List PolicyRow) :=
  match answer table request with
  | .ok rows => some rows
  | .error _ => some table

/-! The engine's tables hold policies whose rows are complete, and its requests send no `null`. -/

section Engine

def PolicyRow.of (policy : RetryPolicy) : PolicyRow where
  id := policy.id
  projectId := policy.projectId
  name := some policy.name
  strategy := some policy.strategy
  baseDelaySec := some policy.baseDelaySec
  maxDelaySec := some policy.maxDelaySec
  maxAttempts := some policy.maxAttempts
  jitterPct := some policy.jitterPct

def RetryPolicyCreate.of (body : Pulse.RetryPolicyCreate) : RetryPolicyCreate :=
  { body with
    baseDelaySec := body.baseDelaySec
    maxDelaySec := body.maxDelaySec
    maxAttempts := body.maxAttempts }

def RetryPolicyUpdate.of (body : Pulse.RetryPolicyUpdate) : RetryPolicyUpdate where
  name := body.name.map some
  strategy := body.strategy.map some
  baseDelaySec := body.baseDelaySec.map fun value : Nat => some (value : Int)
  maxDelaySec := body.maxDelaySec.map fun value : Nat => some (value : Int)
  maxAttempts := body.maxAttempts.map fun value : Nat => some (value : Int)
  jitterPct := body.jitterPct.map some

/-- A policy which the engine's model creates is created here. -/
theorem create_refines {id : Uuid} {body : Pulse.RetryPolicyCreate} {policy : RetryPolicy}
    {table : List PolicyRow} (fresh : id ∉ table.map PolicyRow.id)
    (created : Pulse.createRetryPolicy id body = .ok policy) :
    createRetryPolicy table id (.ok ()) (.of body) = .ok (table ++ [.of policy]) := by
  unfold Pulse.createRetryPolicy at created
  split at created
  · cases created
  · rename_i valid
    cases created
    have meets := Pulse.RetryPolicyCreate.valid_iff.mp (by simpa using valid)
    obtain ⟨⟨least, most, base, max, some_attempts, attempts, positive, jitter⟩, ordered⟩ := meets
    have accepted : (RetryPolicyCreate.of body).valid = true := by
      have name : nameField body.name = true := by simpa [nameField] using And.intro least most
      have inOrder : ¬ (body.maxDelaySec : Int) < body.baseDelaySec := by omega
      have base : baseDelayField body.baseDelaySec = true := by
        simp only [baseDelayField, Bool.and_eq_true, decide_eq_true_eq]
        omega
      have max : maxDelayField body.maxDelaySec = true := by
        simp only [maxDelayField, Bool.and_eq_true, decide_eq_true_eq]
        omega
      have attempts : maxAttemptsField body.maxAttempts = true := by
        simp only [maxAttemptsField, Bool.and_eq_true, decide_eq_true_eq]
        omega
      have jitter : jitterField body.jitterPct = true := by
        simpa [jitterField] using And.intro positive jitter
      simp only [RetryPolicyCreate.valid, RetryPolicyCreate.of, RetryPolicyCreate.maxNotBelowBase,
        name, base, max, attempts, jitter, inOrder, if_false]
      rfl
    have complete : ((RetryPolicyCreate.of body).row id).complete = true := rfl
    simp only [createRetryPolicy, accepted, complete, fresh, Bool.not_true, Bool.false_eq_true,
      if_false]
    rfl

/-- What a PATCH writes is what it writes in the engine's model. -/
theorem update_refines (body : Pulse.RetryPolicyUpdate) (policy : RetryPolicy) :
    (RetryPolicyUpdate.of body).write (.of policy) = .of (body.write policy) := by
  obtain ⟨name, strategy, base, max, attempts, jitter⟩ := body
  have written : ∀ {α β : Type} (sent : Option α) (stored : α) (f : α → β),
      (sent.map fun value => some (f value)).getD (some (f stored)) = some (f (sent.getD stored)) := by
    intro α β sent stored f
    cases sent <;> rfl
  simp only [RetryPolicyUpdate.write, RetryPolicyUpdate.of, PolicyRow.of,
    Pulse.RetryPolicyUpdate.write, PolicyRow.mk.injEq, true_and]
  exact ⟨written name _ id, written strategy _ id, written base _ _, written max _ _,
    written attempts _ _, written jitter _ id⟩

end Engine

end Pulse.RetryPolicies
