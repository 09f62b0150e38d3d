import Pulse.Library.UniqueIndex
import Pulse.System.Runs

/-! `create_job` and `create_batch` statement by statement, beside the sessions of the rest of
the engine. What an open transaction has inserted is in the unique index and not yet in the
database. -/
namespace Pulse

/-- What `uq_jobs_idem` sees of a row. -/
def Job.indexKey (job : Job) : Option (Uuid × String) :=
  job.idempotencyKey.map fun key => (job.queueId, key)

/-- The requests of this module are not taken as one transaction. -/
def Action.creates : Action → Bool
  | .begin _ (.api _ (.createJob _)) | .begin _ (.api _ (.createBatch _)) => true
  | _ => false

namespace Enqueue
open Library.Lts
open Library.UniqueIndex (Insertion insertion)

inductive Call where
  | job (body : JobCreate)
  | batch (body : JobBatchCreate)
deriving DecidableEq, Repr

def Call.queueId : Call → Uuid
  | .job body => body.queueId
  | .batch body => body.queueId

def Call.keys : Call → List String
  | .job body => body.idempotencyKey.toList
  | .batch body => body.jobs.filterMap BatchJobItem.idempotencyKey

/-- 201 with the new jobs, 200 with the job which has the key, or an error. -/
inductive Reply where
  | created (ids : List Uuid)
  | existing (id : Uuid)
  | refused (error : ApiError)
deriving DecidableEq, Repr

structure Answer where
  call : Call
  reply : Reply
deriving DecidableEq, Repr

/-- A request between two of its statements. `create_job` has loaded its queue with the
policy's attempts, looked for its key, checked its dependencies, and flushed its row; or the
flush has raised `IntegrityError` and the session was rolled back. `create_batch` has rows
left to insert. -/
inductive Creator where
  | idle
  | loaded (body : JobCreate) (queue : Queue) (maxAttempts : Nat)
  | looked (body : JobCreate) (queue : Queue) (maxAttempts : Nat)
  | checked (body : JobCreate) (queue : Queue) (maxAttempts : Nat)
  | flushed (body : JobCreate)
  | violated (body : JobCreate)
  | filling (body : JobBatchCreate) (rows : List Job)
deriving DecidableEq, Repr

/-- `inserted` are the rows of the open transactions, the oldest first; `answers` is
auxiliary, the newest first. -/
structure State where
  system : System := {}
  creators : Sid → Creator := fun _ => .idle
  inserted : List (Sid × Job) := []
  answers : List Answer := []

namespace State
variable (state : State) (sid : Sid)

/-- The keys of the committed rows. -/
def committed : List (Uuid × String) :=
  state.system.db.jobs.filterMap fun record => record.job.indexKey

/-- The keys of the rows of open transactions. -/
def entries : List (Sid × Uuid × String) :=
  state.inserted.filterMap fun entry => entry.2.indexKey.map fun key => (entry.1, key)

/-- The rows which a transaction has inserted. -/
def rows : List Job :=
  (state.inserted.filter fun entry => entry.1 = sid).map Prod.snd

def go (next : Creator) : State :=
  { state with creators := Function.update state.creators sid next }

/-- The request is answered and its session done. -/
def answer (call : Call) (reply : Reply) : State :=
  { state with
    creators := Function.update state.creators sid .idle
    answers := ⟨call, reply⟩ :: state.answers }

def rollback : State :=
  { state with
    system := state.system.rollback sid
    creators := Function.update state.creators sid .idle
    inserted := state.inserted.filter fun entry => entry.1 ≠ sid }

/-- The rows are published, and the request is answered with their ids. -/
def commit (call : Call) : State :=
  { system := state.system.commit sid .idle { newJobs := state.rows sid }
    creators := Function.update state.creators sid .idle
    inserted := state.inserted.filter fun entry => entry.1 ≠ sid
    answers := ⟨call, .created ((state.rows sid).map Job.id)⟩ :: state.answers }

/-- Whether the unique index lets the transaction insert the row. -/
def admits (job : Job) : Insertion :=
  match job.indexKey with
  | some key => insertion state.committed state.entries sid key
  | none => .enters

/-- INSERT of one row: it raises `IntegrityError` where the index or the foreign key on the
queue is violated, and waits for another transaction's row or lock. -/
def insert (row : Job) (next : Creator) (violated : State) : Option State :=
  let job := { row with id := state.system.nextUuid }
  match state.admits sid job with
  | .violates => some violated
  | .waits => none
  | .enters =>
    if (state.system.db.findQueue job.queueId).isNone then some violated
    else (state.system.perform sid (.hold .idle [(.queue job.queueId, .keyShare)])).map fun system =>
      { state with
        system
        creators := Function.update state.creators sid next
        inserted := state.inserted ++ [(sid, job)] }

end State

/-- The row of `create_job`: its queue and the policy's attempts were loaded before. -/
def row (db : Db) (now : Time) (body : JobCreate) (queue : Queue) (maxAttempts : Nat) : Job :=
  { body.row db now 0 queue with maxAttempts := body.maxAttempts.getD maxAttempts }

inductive Move where
  | engine (action : Action)
  | createJob (sid : Sid) (body : JobCreate)
  | createBatch (sid : Sid) (now : Time) (body : JobBatchCreate)
  | next (sid : Sid) (now : Time)
  | fail (sid : Sid)
deriving Repr

/-- The next statement of a request. -/
def next (state : State) (sid : Sid) (now : Time) : Creator → Option State
  | .idle => none
  | .loaded body queue maxAttempts =>
    -- An empty key is not looked up.
    match (body.idempotencyKey.filter (· ≠ "")).bind (state.system.db.findKey queue.id) with
    | some record => some (state.answer sid (.job body) (.existing record.job.id))
    | none => some (state.go sid (.looked body queue maxAttempts))
  | .looked body queue maxAttempts =>
    if validateDependsOn state.system.db body.dependsOn queue.projectId then
      some (state.go sid (.checked body queue maxAttempts))
    else some (state.answer sid (.job body) (.refused (.unprocessable
      "One or more depends_on job ids do not exist in this project")))
  | .checked body queue maxAttempts =>
    state.insert sid (row state.system.db now body queue maxAttempts) (.flushed body)
      ((state.rollback sid).go sid (.violated body))
  | .flushed body => some (state.commit sid (.job body))
  | .violated body =>
    match body.idempotencyKey.bind (state.system.db.findKey body.queueId) with
    | some record => some (state.answer sid (.job body) (.existing record.job.id))
    | none => some (state.answer sid (.job body) (.refused (.conflict
      "Job could not be created due to a conflicting idempotency key")))
  | .filling body [] => some (state.commit sid (.batch body))
  | .filling body (row :: rest) =>
    state.insert sid row (.filling body rest) ((state.rollback sid).answer sid (.batch body)
      (.refused (.conflict "The request conflicts with existing data")))

/-- The first statement of a request: its body is validated and its queue loaded; the caller's
role is given. -/
def begins (state : State) (sid : Sid) (call : Call) (valid : Bool)
    (start : Queue → Creator) : Option State :=
  if state.creators sid = .idle ∧ state.system.sessions sid = .idle then
    if !valid then
      some (state.answer sid call (.refused (.unprocessable "Request validation failed")))
    else match state.system.db.findQueue call.queueId with
      | none => some (state.answer sid call (.refused (.notFound "Queue not found")))
      | some queue => some { state.go sid (start queue) with
          system := { state.system with nextUuid := 2 * state.system.nextUuid } }
  else none

def step (env : Environment) (state : State) : Move → Option State
  | .engine action =>
    if action.creates || !action.sids.all fun sid => state.creators sid = .idle then none
    else (Pulse.step env state.system action).map fun system => { state with system }
  | .createJob sid body => begins state sid (.job body) body.valid fun queue =>
      .loaded body queue (defaultMaxAttempts state.system.db queue)
  | .createBatch sid now body => begins state sid (.batch body) body.valid fun queue =>
      .filling body (body.rows state.system.db now 0 state.system.nextUuid queue)
  | .next sid now => next state sid now (state.creators sid)
  | .fail sid => if state.creators sid = .idle then none else some (state.rollback sid)

/-- Any database which meets the index and the primary keys, with no session at work. -/
def enqueue (env : Environment) : Machine State Move where
  init := fun state => Shape state.system ∧ state.committed.Nodup ∧
    (∀ sid, state.system.sessions sid = .idle) ∧ (∀ sid, state.creators sid = .idle) ∧
    state.inserted = [] ∧ state.answers = []
  step := step env

end Enqueue

end Pulse
